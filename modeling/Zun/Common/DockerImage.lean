import Zun.Data.Regex
import Zun.Data.Strings

/-!
# Image references

`Reference` of `zun/common/docker_image/reference.py`, the expressions of `regexp.py` that it goes by, and
`validate_digest` of `digest.py`.

An expression that ends in `$` ends before a line feed too, if that is the last character.  A letter of a tag is
whatever Python takes for one.  And a digest is looked at a second time, by a function that raises what no other
part of the project knows.
-/

namespace Zun

open Regex Strings

namespace DockerImage

/-! ## The expressions -/

/-- What `\w` stands for.  Python decides it by the categories of Unicode; in ASCII it is letters, digits and the
low line. -/
structure Unicode where
  word : Char → Bool
  ascii : ∀ c : Char, c.toNat < 128 → word c = (c.isAlphanum || c = '_')

def alphaNumericRegexp : Regex Char := plus (chars fun c => c.isLower || c.isDigit)

def separatorRegexp : Regex Char :=
  alt (chars fun c => c = '.' || c = '_') (alt (seq (lit '_') (lit '_')) (star (lit '-')))

def nameComponentRegexp : Regex Char :=
  seq alphaNumericRegexp (opt (plus (seq separatorRegexp alphaNumericRegexp)))

def hostnameComponentRegexp : Regex Char :=
  alt (chars Char.isAlphanum)
    (seq (chars Char.isAlphanum) (seq (star (chars fun c => c.isAlphanum || c = '-')) (chars Char.isAlphanum)))

def hostnameRegexp : Regex Char :=
  seq hostnameComponentRegexp
    (seq (opt (plus (seq (lit '.') hostnameComponentRegexp))) (opt (seq (lit ':') (plus (chars Char.isDigit)))))

def tagRegexp (u : Unicode) : Regex Char :=
  seq (chars u.word) (upTo 127 (chars fun c => u.word c || c = '.' || c = '-'))

/-- The characters of the name of an algorithm. -/
def isAlgorithmChar (c : Char) : Bool := c.isAlphanum || c = '-' || c = '_' || c = '+' || c = '.'

def isHex (c : Char) : Bool := c.isDigit || ('a' ≤ c && c ≤ 'f') || ('A' ≤ c && c ≤ 'F')

def digestRegexp : Regex Char := seq (plus (chars isAlgorithmChar)) (seq (lit ':') (plus (chars isHex)))

/-- The part of a name after the host. -/
def pathRegexp : Regex Char :=
  seq nameComponentRegexp (opt (plus (seq (lit '/') nameComponentRegexp)))

def nameRegexp : Regex Char := seq (opt (seq hostnameRegexp (lit '/'))) pathRegexp

/-- `ANCHORED_NAME_REGEXP`, between its anchors. -/
def anchoredNameRegexp : Regex Char := seq (opt (seq (capture 1 hostnameRegexp) (lit '/'))) (capture 2 pathRegexp)

/-- `REFERENCE_REGEXP`, between its anchors. -/
def referenceRegexp (u : Unicode) : Regex Char :=
  seq (capture 1 nameRegexp)
    (seq (opt (seq (lit ':') (capture 2 (tagRegexp u)))) (opt (seq (lit '@') (capture 3 digestRegexp))))

/-- `match` of an expression between `^` and `$`: to the end, or to a line feed there. -/
def anchoredMatch (r : Regex Char) (s : String) : Option (Captures Char) :=
  ((run r s.toList).find? fun (_, rest) => rest = [] || rest = ['\n']).map (·.1)

/-- `groups()[i - 1]`. -/
def group (g : Captures Char) (i : Nat) : Option String := (g.lookup i).map String.ofList

/-! ## Digests -/

inductive InvalidDigest where
  | invalidDigest
  | digestUnsupported
  | digestInvalidLength
deriving DecidableEq

/-- `DIGESTS_SIZE`. -/
def digestsSize : String → Option Nat
  | "sha256" => some 32
  | "sha384" => some 48
  | "sha512" => some 64
  | _ => none

def validateDigest (digest : String) : Except InvalidDigest Unit :=
  match anchoredMatch digestRegexp digest with
  | none => .error .invalidDigest
  | some _ =>
      let (algorithm, found, hex) := partition ':' digest
      if !found || hex = "" then .error .invalidDigest
      else match digestsSize algorithm with
        | none => .error .digestUnsupported
        | some size => if size * 2 ≠ hex.length then .error .digestInvalidLength else .ok ()

/-! ## References -/

inductive Error where
  | nameEmpty
  | referenceInvalidFormat
  | nameTooLong (lengthMax : Nat)
  /-- Of a family of its own. -/
  | digest (e : InvalidDigest)
deriving DecidableEq

/-- It is a `ZunException`. -/
def Error.isZun : Error → Bool
  | digest _ => false
  | _ => true

/-- A `Reference` by its class, with the entries that the class sets. -/
inductive Reference where
  | digestReference (digest : String)
  | canonicalReference (name digest : String)
  | namedReference (name : String)
  | taggedReference (name tag : String)
  | reference (name tag digest : String)
deriving DecidableEq

namespace Reference

def string : Reference → String
  | digestReference digest => digest
  | canonicalReference name digest => name ++ "@" ++ digest
  | namedReference name => name
  | taggedReference name tag => name ++ ":" ++ tag
  | reference name tag digest => name ++ ":" ++ tag ++ "@" ++ digest

def name : Reference → Option String
  | digestReference _ => none
  | canonicalReference name _ => some name
  | namedReference name => some name
  | taggedReference name _ => some name
  | reference name _ _ => some name

def tag : Reference → Option String
  | taggedReference _ tag => some tag
  | reference _ tag _ => some tag
  | _ => none

def digest : Reference → Option String
  | digestReference digest => some digest
  | canonicalReference _ digest => some digest
  | reference _ _ digest => some digest
  | _ => none

end Reference

/-- Python's truth of an entry. -/
def entry : Option String → Option String
  | some "" => none
  | s => s

/-- `best_reference`. -/
def bestReference (name tag digest : Option String) : Option Reference :=
  match entry name, entry tag, entry digest with
  | none, _, some digest => some (.digestReference digest)
  | none, _, none => none
  | some name, none, some digest => some (.canonicalReference name digest)
  | some name, none, none => some (.namedReference name)
  | some name, some tag, none => some (.taggedReference name tag)
  | some name, some tag, some digest => some (.reference name tag digest)

def nameTotalLengthMax : Nat := 255

variable (u : Unicode)

/-- The digest that was captured, if it is one. -/
def checkedDigest (digest : Option String) : Except Error (Option String) :=
  match entry digest with
  | none => .ok none
  | some digest => match validateDigest digest with
    | .error e => .error (.digest e)
    | .ok () => .ok (some digest)

/-- `Reference.parse`. -/
def parse (s : String) : Except Error Reference :=
  match anchoredMatch (referenceRegexp u) s with
  | none => if s = "" then .error .nameEmpty else .error .referenceInvalidFormat
  | some g =>
      let name := group g 1
      if nameTotalLengthMax < (name.getD "").length then .error (.nameTooLong nameTotalLengthMax)
      else do
        let digest ← checkedDigest (group g 3)
        match bestReference name (group g 2) digest with
        | none => .error .nameEmpty
        | some r => .ok r

/-- `split_hostname`. -/
def splitHostname (name : String) : String × String :=
  match anchoredMatch anchoredNameRegexp name with
  | none => ("", name)
  | some g => match group g 1, group g 2 with
    | some hostname, some rest =>
        if !hostname.toList.contains '.' && !hostname.toList.contains ':' && hostname ≠ "localhost" then ("", name)
        else (hostname, rest)
    | _, _ => ("", name)

/-! ## The languages of the expressions -/

variable {u}

/-- What is put before a tag and before a digest. -/
def tagPart (tag : Option String) : String := tag.elim "" (":" ++ ·)

def digestPart (digest : Option String) : String := digest.elim "" ("@" ++ ·)

/-- `name[:tag][@digest]`. -/
def join (name : String) (tag digest : Option String) : String := name ++ tagPart tag ++ digestPart digest

/-- The parts are of the languages of their expressions. -/
structure Syntactic (u : Unicode) (name : String) (tag digest : Option String) : Prop where
  name : Matches nameRegexp name.toList []
  tag : ∀ t, tag = some t → Matches (tagRegexp u) t.toList []
  digest : ∀ d, digest = some d → Matches digestRegexp d.toList []

section

variable {name name' : String} {tag tag' digest digest' : Option String} {w w' : List Char} {g : Captures Char}
  {s : String}

theorem Unicode.word_eq_false (u : Unicode) {c : Char} (h : c.toNat < 128) (hc : (c.isAlphanum || c = '_') = false) :
    u.word c = false := by
  rw [u.ascii c h, hc]

theorem matches_tag_iff : Matches (tagRegexp u) w g ↔
    (∃ c cs, w = c :: cs ∧ u.word c = true ∧ cs.length ≤ 127 ∧
      ∀ a ∈ cs, (u.word a || a = '.' || a = '-') = true) ∧ g = [] := by
  simp only [tagRegexp, matches_seq_iff, matches_chars_iff, matches_upTo_chars_iff]
  constructor
  · rintro ⟨w₁, w₂, g₁, g₂, ⟨c, hc, rfl, rfl⟩, ⟨hlength, hall, rfl⟩, rfl, rfl⟩
    exact ⟨⟨c, w₂, rfl, hc, hlength, hall⟩, rfl⟩
  · rintro ⟨⟨c, cs, rfl, hc, hlength, hall⟩, rfl⟩
    exact ⟨[c], cs, [], [], ⟨c, hc, rfl, rfl⟩, ⟨hlength, hall, rfl⟩, rfl, rfl⟩

/-- A character of ASCII that is neither a word character nor one of the two others is in no tag. -/
theorem notMem_of_tag {t : List Char} {c : Char} (h : Matches (tagRegexp u) t g) (hc : c.toNat < 128)
    (hword : (c.isAlphanum || c = '_') = false) (hother : (c = '.' || c = '-') = false) : c ∉ t := by
  obtain ⟨⟨a, as, rfl, ha, -, hall⟩, -⟩ := matches_tag_iff.mp h
  have hnot := u.word_eq_false hc hword
  intro hmem
  rcases List.mem_cons.mp hmem with rfl | hmem
  · rw [hnot] at ha
    cases ha
  · have := hall c hmem
    rw [hnot, Bool.false_or, hother] at this
    cases this

theorem matches_digest_iff : Matches digestRegexp w g ↔
    (∃ a h, w = a ++ ':' :: h ∧ a ≠ [] ∧ (∀ c ∈ a, isAlgorithmChar c = true) ∧ h ≠ [] ∧
      ∀ c ∈ h, isHex c = true) ∧ g = [] := by
  simp only [digestRegexp, matches_seq_iff, matches_plus_chars_iff, matches_lit_iff]
  constructor
  · rintro ⟨a, w₂, g₁, g₂, ⟨ha, hall, rfl⟩, ⟨w₃, h, g₃, g₄, ⟨rfl, rfl⟩, ⟨hh, hhex, rfl⟩, rfl, rfl⟩, rfl, rfl⟩
    exact ⟨⟨a, h, rfl, ha, hall, hh, hhex⟩, rfl⟩
  · rintro ⟨⟨a, h, rfl, ha, hall, hh, hhex⟩, rfl⟩
    exact ⟨a, ':' :: h, [], [], ⟨ha, hall, rfl⟩, ⟨[':'], h, [], [], ⟨rfl, rfl⟩, ⟨hh, hhex, rfl⟩, rfl, rfl⟩, rfl, rfl⟩

/-- What the expression of references captures. -/
def captures (name : String) (tag digest : Option String) : Captures Char :=
  (1, name.toList) :: (tag.elim [] fun t => [(2, t.toList)]) ++ digest.elim [] fun d => [(3, d.toList)]

theorem matches_reference_iff : Matches (referenceRegexp u) w g ↔
    ∃ name tag digest, Syntactic u name tag digest ∧ w = (join name tag digest).toList ∧
      g = captures name tag digest := by
  simp only [referenceRegexp, matches_seq_iff, matches_opt_iff, matches_capture_iff, matches_lit_iff]
  constructor
  · rintro ⟨n, rest, g₁, g₂, ⟨gn, hn, rfl⟩, ⟨t, d, g₃, g₄, ht, hd, rfl, rfl⟩, rfl, rfl⟩
    obtain rfl := hn.eq_nil rfl
    rcases ht with ⟨_, t, _, _, ⟨rfl, rfl⟩, ⟨gt, ht, rfl⟩, rfl, rfl⟩ | ⟨rfl, rfl⟩
    · obtain rfl := (matches_tag_iff.mp ht).2
      rcases hd with ⟨_, d, _, _, ⟨rfl, rfl⟩, ⟨gd, hd, rfl⟩, rfl, rfl⟩ | ⟨rfl, rfl⟩
      · obtain rfl := hd.eq_nil rfl
        refine ⟨String.ofList n, some (String.ofList t), some (String.ofList d), ⟨?_, ?_, ?_⟩, ?_, ?_⟩
        · simpa using hn
        · simpa using ht
        · simpa using hd
        · simp [join, tagPart, digestPart]
        · simp [captures]
      · refine ⟨String.ofList n, some (String.ofList t), none, ⟨?_, ?_, ?_⟩, ?_, ?_⟩
        · simpa using hn
        · simpa using ht
        · simp
        · simp [join, tagPart, digestPart]
        · simp [captures]
    · rcases hd with ⟨_, d, _, _, ⟨rfl, rfl⟩, ⟨gd, hd, rfl⟩, rfl, rfl⟩ | ⟨rfl, rfl⟩
      · obtain rfl := hd.eq_nil rfl
        refine ⟨String.ofList n, none, some (String.ofList d), ⟨?_, ?_, ?_⟩, ?_, ?_⟩
        · simpa using hn
        · simp
        · simpa using hd
        · simp [join, tagPart, digestPart]
        · simp [captures]
      · refine ⟨String.ofList n, none, none, ⟨?_, ?_, ?_⟩, ?_, ?_⟩
        · simpa using hn
        · simp
        · simp
        · simp [join, tagPart, digestPart]
        · simp [captures]
  · rintro ⟨name, tag, digest, h, rfl, rfl⟩
    refine ⟨name.toList, (tagPart tag).toList ++ (digestPart digest).toList, [(1, name.toList)],
      (tag.elim [] fun t => [(2, t.toList)]) ++ digest.elim [] fun d => [(3, d.toList)],
      ⟨[], h.name, rfl⟩, ⟨_, _, _, _, ?_, ?_, rfl, rfl⟩, by simp [join], rfl⟩
    · cases tag with
      | none => exact .inr ⟨rfl, rfl⟩
      | some t =>
          exact .inl ⟨[':'], t.toList, [], [(2, t.toList)], ⟨rfl, rfl⟩, ⟨[], h.tag t rfl, rfl⟩,
            by simp [tagPart], rfl⟩
    · cases digest with
      | none => exact .inr ⟨rfl, rfl⟩
      | some d =>
          exact .inl ⟨['@'], d.toList, [], [(3, d.toList)], ⟨rfl, rfl⟩, ⟨[], h.digest d rfl, rfl⟩,
            by simp [digestPart], rfl⟩

/-! ## One decomposition -/

/-- After what is not among the last characters comes what is before those. -/
theorem mem_of_append_cons {α : Type} {a b : α} {x y z z' : List α} (hne : a ≠ b) (hz : a ∉ z)
    (h : x ++ a :: z' = y ++ b :: z) : b ∈ z' := by
  rcases List.append_eq_append_iff.mp h with ⟨c, rfl, hc⟩ | ⟨c, rfl, hc⟩
  · cases c with
    | nil => exact absurd (List.cons.inj hc).1 hne
    | cons d c =>
        obtain ⟨-, rfl⟩ := List.cons.inj hc
        simp
  · cases c with
    | nil => exact absurd (List.cons.inj hc).1.symm hne
    | cons d c =>
        obtain ⟨-, rfl⟩ := List.cons.inj hc
        exact absurd (by simp) hz

/-- A name is a path, or a host and a path. -/
theorem name_cases (h : Matches nameRegexp w g) : Matches pathRegexp w [] ∨
    ∃ host path, Matches hostnameRegexp host [] ∧ Matches pathRegexp path [] ∧ w = host ++ '/' :: path := by
  simp only [nameRegexp, matches_seq_iff, matches_opt_iff, matches_lit_iff] at h
  obtain ⟨w₁, path, g₁, g₂, hhost, hpath, rfl, rfl⟩ := h
  obtain rfl := hpath.eq_nil rfl
  rcases hhost with ⟨host, _, gh, _, hhost, ⟨rfl, rfl⟩, rfl, rfl⟩ | ⟨rfl, rfl⟩
  · obtain rfl := hhost.eq_nil rfl
    exact .inr ⟨host, path, hhost, hpath, by simp⟩
  · exact .inl (by simpa using hpath)

/-- In a name, a colon is before a port, and a slash comes after that. -/
theorem slash_of_colon (h : Matches nameRegexp w g) {x z : List Char} (hw : w = x ++ ':' :: z) : '/' ∈ z := by
  rcases name_cases h with hpath | ⟨host, path, -, hpath, rfl⟩
  · have hcolon : ':' ∉ w := hpath.notMem rfl
    rw [hw] at hcolon
    exact absurd (by simp) hcolon
  · exact mem_of_append_cons (by decide) (hpath.notMem rfl) hw.symm

theorem slash_notMem_tag (h : Matches (tagRegexp u) w g) : '/' ∉ w := notMem_of_tag h (by decide) rfl rfl

theorem colon_notMem_tag (h : Matches (tagRegexp u) w g) : ':' ∉ w := notMem_of_tag h (by decide) rfl rfl

theorem at_notMem_tag (h : Matches (tagRegexp u) w g) : '@' ∉ w := notMem_of_tag h (by decide) rfl rfl

theorem newline_notMem_tag (h : Matches (tagRegexp u) w g) : '
' ∉ w := notMem_of_tag h (by decide) rfl rfl

/-- The name and the tag of what is before a digest. -/
theorem named_unique (h : Syntactic u name tag digest) (h' : Syntactic u name' tag' digest')
    (heq : (name ++ tagPart tag).toList = (name' ++ tagPart tag').toList) : name = name' ∧ tag = tag' := by
  cases tag with
  | none =>
      cases tag' with
      | none => exact ⟨String.toList_injective (by simpa [tagPart] using heq), rfl⟩
      | some t' =>
          simp only [tagPart, Option.elim, String.toList_append, String.append_empty,
            show (":" : String).toList = [':'] from rfl, List.singleton_append] at heq
          exact absurd (slash_of_colon h.name heq) (slash_notMem_tag (h'.tag t' rfl))
  | some t =>
      simp only [tagPart, Option.elim, String.toList_append, show (":" : String).toList = [':'] from rfl,
        List.singleton_append] at heq
      cases tag' with
      | none =>
          simp only [String.toList_empty, List.append_nil] at heq
          exact absurd (slash_of_colon h'.name heq.symm) (slash_notMem_tag (h.tag t rfl))
      | some t' =>
          simp only [String.toList_append, show (":" : String).toList = [':'] from rfl,
            List.singleton_append] at heq
          obtain ⟨hname, htag⟩ := append_cons_inj_of_notMem (colon_notMem_tag (h.tag t rfl))
            (colon_notMem_tag (h'.tag t' rfl)) heq
          exact ⟨String.toList_injective hname, by rw [String.toList_injective htag]⟩

theorem at_notMem_named (h : Syntactic u name tag digest) : '@' ∉ (name ++ tagPart tag).toList := by
  have hname : '@' ∉ name.toList := h.name.notMem rfl
  cases tag with
  | none => simpa [tagPart] using hname
  | some t => simpa [tagPart] using ⟨hname, at_notMem_tag (h.tag t rfl)⟩

theorem newline_notMem_join (h : Syntactic u name tag digest) : '
' ∉ (join name tag digest).toList := by
  have hname : '
' ∉ name.toList := h.name.notMem rfl
  have htag : '
' ∉ (tagPart tag).toList := by
    cases tag with
    | none => simp [tagPart]
    | some t => simpa [tagPart] using newline_notMem_tag (h.tag t rfl)
  have hdigest : '
' ∉ (digestPart digest).toList := by
    cases digest with
    | none => simp [digestPart]
    | some d => simpa [digestPart] using (h.digest d rfl).notMem rfl
  simp [join, hname, htag, hdigest]

/-- A reference has one name, one tag and one digest. -/
theorem join_unique (h : Syntactic u name tag digest) (h' : Syntactic u name' tag' digest')
    (heq : join name tag digest = join name' tag' digest') :
    name = name' ∧ tag = tag' ∧ digest = digest' := by
  have hlist := congrArg String.toList heq
  cases digest with
  | none =>
      cases digest' with
      | none =>
          obtain ⟨hname, htag⟩ := named_unique h h' (by simpa [join, digestPart] using hlist)
          exact ⟨hname, htag, rfl⟩
      | some d' =>
          have hnot := at_notMem_named h
          have hmem : '@' ∈ (join name tag none).toList := by
            rw [hlist]
            simp [join, digestPart]
          exact absurd (by simpa [join, digestPart] using hmem) hnot
  | some d =>
      cases digest' with
      | none =>
          have hnot := at_notMem_named h'
          have hmem : '@' ∈ (join name' tag' none).toList := by
            rw [← hlist]
            simp [join, digestPart]
          exact absurd (by simpa [join, digestPart] using hmem) hnot
      | some d' =>
          have hsplit : (name ++ tagPart tag).toList ++ '@' :: d.toList =
              (name' ++ tagPart tag').toList ++ '@' :: d'.toList := by
            simpa [join, digestPart] using hlist
          obtain ⟨hnamed, hdigest⟩ := append_cons_inj_of_notMem ((h.digest d rfl).notMem rfl)
            ((h'.digest d' rfl).notMem rfl) hsplit
          obtain ⟨hname, htag⟩ := named_unique h h' hnamed
          exact ⟨hname, htag, by rw [String.toList_injective hdigest]⟩

/-! ## What a match is -/

/-- The string, or the string without a line feed at its end. -/
def Ends (s : String) (w : List Char) : Prop := s.toList = w ∨ s.toList = w ++ ['\n']

theorem anchoredMatch_eq_some {r : Regex Char} (h : anchoredMatch r s = some g) :
    ∃ w, Matches r w g ∧ Ends s w := by
  obtain ⟨⟨g', rest⟩, hfind, rfl⟩ := Option.map_eq_some_iff.mp h
  obtain ⟨w, hs, hw⟩ := (mem_run_iff r).mp (List.mem_of_find?_eq_some hfind)
  have hrest := List.find?_some hfind
  simp only [Bool.or_eq_true, decide_eq_true_eq] at hrest
  rcases hrest with rfl | rfl
  · exact ⟨w, hw, .inl (by simpa using hs)⟩
  · exact ⟨w, hw, .inr hs⟩

theorem exists_anchoredMatch {r : Regex Char} (h : Matches r w g) (hs : Ends s w) :
    ∃ g', anchoredMatch r s = some g' := by
  have hmem : ∃ rest, (g, rest) ∈ run r s.toList ∧ (decide (rest = []) || decide (rest = ['\n'])) = true := by
    rcases hs with hs | hs
    · exact ⟨[], (mem_run_iff r).mpr ⟨w, by simpa using hs, h⟩, by simp⟩
    · exact ⟨['\n'], (mem_run_iff r).mpr ⟨w, hs, h⟩, by simp⟩
  obtain ⟨rest, hmem, hrest⟩ := hmem
  cases hfind : (run r s.toList).find? fun (_, rest) => rest = [] || rest = ['\n'] with
  | none => exact absurd hrest (List.find?_eq_none.mp hfind _ hmem)
  | some p => exact ⟨p.1, by simp only [anchoredMatch, hfind, Option.map_some]⟩

/-- Where a word has no line feed, a string ends in one way. -/
theorem Ends.unique (h : Ends s w) (h' : Ends s w') (hw : '\n' ∉ w) (hw' : '\n' ∉ w') : w = w' := by
  rcases h with h | h
  · rcases h' with h' | h'
    · exact h.symm.trans h'
    · rw [← h, h'] at hw
      exact absurd (by simp) hw
  · rcases h' with h' | h'
    · rw [← h', h] at hw'
      exact absurd (by simp) hw'
    · exact List.append_cancel_right (h.symm.trans h')

/-- The expression of references captures the parts of the reference that a string ends with. -/
theorem anchoredMatch_reference (h : Syntactic u name tag digest) (hs : Ends s (join name tag digest).toList) :
    anchoredMatch (referenceRegexp u) s = some (captures name tag digest) := by
  obtain ⟨g, hg⟩ := exists_anchoredMatch (matches_reference_iff.mpr ⟨name, tag, digest, h, rfl, rfl⟩) hs
  obtain ⟨w, hw, hends⟩ := anchoredMatch_eq_some hg
  obtain ⟨name', tag', digest', h', rfl, rfl⟩ := matches_reference_iff.mp hw
  have heq := String.toList_injective (hs.unique hends (newline_notMem_join h) (newline_notMem_join h'))
  obtain ⟨rfl, rfl, rfl⟩ := join_unique h h' heq
  exact hg

/-! ## Digests that are supported -/

/-- A known algorithm, with a hexadecimal part of its length. -/
def IsDigest (d : String) : Prop :=
  ∃ algorithm hex size, d = algorithm ++ ":" ++ hex ∧ digestsSize algorithm = some size ∧
    hex.length = size * 2 ∧ ∀ c ∈ hex.toList, isHex c = true

theorem digestsSize_cases {algorithm : String} {size : Nat} (h : digestsSize algorithm = some size) :
    (algorithm = "sha256" ∨ algorithm = "sha384" ∨ algorithm = "sha512") ∧ 0 < size := by
  unfold digestsSize at h
  split at h <;> simp_all <;> omega

theorem IsDigest.matches {d : String} (h : IsDigest d) : Matches digestRegexp d.toList [] := by
  obtain ⟨algorithm, hex, size, rfl, hsize, hlength, hhex⟩ := h
  obtain ⟨halgorithm, hpos⟩ := digestsSize_cases hsize
  refine matches_digest_iff.mpr ⟨⟨algorithm.toList, hex.toList, by simp, ?_, ?_, ?_, hhex⟩, rfl⟩
  · rcases halgorithm with rfl | rfl | rfl <;> decide
  · rcases halgorithm with rfl | rfl | rfl <;> exact List.all_eq_true.mp (by decide)
  · intro hnil
    have : hex.length = 0 := by rw [← String.length_toList, hnil, List.length_nil]
    omega

/-- What passes the second look at a digest. -/
theorem validateDigest_iff {d : String} (h : Matches digestRegexp d.toList []) :
    validateDigest d = .ok () ↔ IsDigest d := by
  obtain ⟨g, hg⟩ := exists_anchoredMatch h (.inl rfl)
  obtain ⟨⟨a, x, hd, ha, halg, hx, hhex⟩, -⟩ := matches_digest_iff.mp h
  have hcolon : ':' ∉ a := fun hmem => absurd (halg ':' hmem) (by decide)
  have heq : d = String.ofList a ++ ":" ++ String.ofList x := String.toList_injective (by simpa using hd)
  have hsplit : partition ':' d = (String.ofList a, true, String.ofList x) := by
    rw [heq, show (":" : String) = String.singleton ':' from rfl]
    exact partition_append (String.ofList x) (by simpa using hcolon)
  have hne : String.ofList x ≠ "" := fun hempty => hx (by simpa using congrArg String.toList hempty)
  simp only [validateDigest, hg, hsplit, Bool.not_true, Bool.false_or, decide_eq_true_eq, if_neg hne]
  constructor
  · intro hok
    cases hsize : digestsSize (String.ofList a) with
    | none => simp [hsize] at hok
    | some size =>
        simp only [hsize] at hok
        split at hok
        · cases hok
        · next hlength =>
          exact ⟨_, _, size, heq, hsize, by simpa using Eq.symm (not_not.mp hlength), by simpa using hhex⟩
  · rintro ⟨algorithm, hex, size, hd', hsize, hlength, -⟩
    have hnot : ':' ∉ algorithm.toList := by
      rcases (digestsSize_cases hsize).1 with rfl | rfl | rfl <;> decide
    have hsplit' : partition ':' d = (algorithm, true, hex) := by
      rw [hd', show (":" : String) = String.singleton ':' from rfl]
      exact partition_append hex hnot
    rw [hsplit, Prod.mk.injEq, Prod.mk.injEq] at hsplit'
    obtain ⟨rfl, -, rfl⟩ := hsplit'
    simp only [hsize]
    rw [if_neg (by simpa using hlength.symm)]

/-! ## What is parsed -/

/-- The reference of some parts, by the class that fits. -/
def Reference.of (name : String) : Option String → Option String → Reference
  | none, none => .namedReference name
  | none, some digest => .canonicalReference name digest
  | some tag, none => .taggedReference name tag
  | some tag, some digest => .reference name tag digest

@[simp] theorem Reference.name_of : (Reference.of name tag digest).name = some name := by
  cases tag <;> cases digest <;> rfl

@[simp] theorem Reference.tag_of : (Reference.of name tag digest).tag = tag := by
  cases tag <;> cases digest <;> rfl

@[simp] theorem Reference.digest_of : (Reference.of name tag digest).digest = digest := by
  cases tag <;> cases digest <;> rfl

theorem Reference.string_of : (Reference.of name tag digest).string = join name tag digest := by
  cases tag <;> cases digest <;>
    simp [Reference.of, Reference.string, join, tagPart, digestPart, String.append_assoc]

theorem path_ne_nil (h : Matches pathRegexp w g) : w ≠ [] := by
  simp only [pathRegexp, nameComponentRegexp, alphaNumericRegexp, matches_seq_iff, matches_plus_chars_iff] at h
  obtain ⟨_, w₂, _, _, ⟨w₁, w₃, _, _, ⟨hne, -⟩, -, rfl, -⟩, -, rfl, -⟩ := h
  simp [hne]

theorem name_ne_empty (h : Matches nameRegexp name.toList g) : name ≠ "" := by
  rintro rfl
  rcases name_cases h with hpath | ⟨host, path, -, -, hnil⟩
  · exact path_ne_nil hpath rfl
  · simp at hnil

theorem entry_some {x : String} (h : x ≠ "") : entry (some x) = some x := by
  unfold entry
  split
  · next heq => exact absurd (Option.some.inj heq) h
  · rfl

theorem entry_tag (h : Syntactic u name tag digest) : entry tag = tag := by
  cases tag with
  | none => rfl
  | some t =>
      refine entry_some ?_
      rintro rfl
      obtain ⟨⟨c, cs, hnil, -⟩, -⟩ := matches_tag_iff.mp (h.tag "" rfl)
      simp at hnil

theorem entry_digest (h : Syntactic u name tag digest) : entry digest = digest := by
  cases digest with
  | none => rfl
  | some d =>
      refine entry_some ?_
      rintro rfl
      obtain ⟨⟨a, x, hnil, -⟩, -⟩ := matches_digest_iff.mp (h.digest "" rfl)
      simp at hnil

theorem bestReference_eq (h : Syntactic u name tag digest) :
    bestReference (some name) tag digest = some (.of name tag digest) := by
  simp only [bestReference, entry_some (name_ne_empty h.name), entry_tag h, entry_digest h]
  cases tag <;> cases digest <;> rfl

theorem group_captures : group (captures name tag digest) 1 = some name ∧
    group (captures name tag digest) 2 = tag ∧ group (captures name tag digest) 3 = digest := by
  have hof (x : String) : some (String.ofList x.toList) = some x := by rw [String.ofList_toList]
  cases tag with
  | none => cases digest with
    | none => exact ⟨hof _, rfl, rfl⟩
    | some d => exact ⟨hof _, rfl, hof d⟩
  | some t => cases digest with
    | none => exact ⟨hof _, hof t, rfl⟩
    | some d => exact ⟨hof _, hof t, hof d⟩

theorem checkedDigest_ok {d' : Option String} (h : checkedDigest digest = .ok d') : d' = entry digest := by
  unfold checkedDigest at h
  split at h
  · next hentry =>
    cases h
    exact hentry.symm
  · next hentry =>
    split at h
    · cases h
    · cases h
      exact hentry.symm

/-- A digest that is supported is taken, one that is not is refused. -/
theorem checkedDigest_eq (h : Syntactic u name tag digest) (hd : ∀ d, digest = some d → IsDigest d) :
    checkedDigest digest = .ok digest := by
  cases digest with
  | none => rfl
  | some d => simp only [checkedDigest, entry_digest h, (validateDigest_iff (h.digest d rfl)).mpr (hd d rfl)]

theorem checkedDigest_error {d : String} (h : Syntactic u name tag (some d)) (hd : ¬ IsDigest d) :
    ∃ e, checkedDigest (some d) = .error (.digest e) := by
  cases hvalid : validateDigest d with
  | ok _ => exact absurd ((validateDigest_iff (h.digest d rfl)).mp hvalid) hd
  | error e => exact ⟨e, by simp only [checkedDigest, entry_digest h, hvalid]⟩

/-- A string that ends with a reference: its name is too long, or its digest is none, or it is parsed. -/
theorem parse_eq (h : Syntactic u name tag digest) (hs : Ends s (join name tag digest).toList) :
    parse u s = if 255 < name.length then .error (.nameTooLong 255)
      else (checkedDigest digest).map fun _ => .of name tag digest := by
  obtain ⟨hname, htag, hdigest⟩ := @group_captures name tag digest
  simp only [parse, anchoredMatch_reference h hs, hname, htag, hdigest, nameTotalLengthMax, Option.getD_some]
  split
  · rfl
  · cases hchecked : checkedDigest digest with
    | error e => simp only [bind, Except.bind, Except.map]
    | ok d =>
        obtain rfl : d = digest := (checkedDigest_ok hchecked).trans (entry_digest h)
        simp only [bind, Except.bind, Except.map, bestReference_eq h]

/-- A string that ends with no reference. -/
theorem parse_eq_error (h : ∀ name tag digest, Syntactic u name tag digest → ¬ Ends s (join name tag digest).toList) :
    ∃ e, parse u s = .error e ∧ e.isZun = true := by
  cases hmatch : anchoredMatch (referenceRegexp u) s with
  | none =>
      simp only [parse, hmatch]
      split
      · exact ⟨_, rfl, rfl⟩
      · exact ⟨_, rfl, rfl⟩
  | some g =>
      obtain ⟨w, hw, hends⟩ := anchoredMatch_eq_some hmatch
      obtain ⟨name, tag, digest, hsyntactic, rfl, -⟩ := matches_reference_iff.mp hw
      exact absurd hends (h name tag digest hsyntactic)

/-- A string ends with one reference. -/
theorem Syntactic.unique (h : Syntactic u name tag digest) (hs : Ends s (join name tag digest).toList)
    (h' : Syntactic u name' tag' digest') (hs' : Ends s (join name' tag' digest').toList) :
    name = name' ∧ tag = tag' ∧ digest = digest' :=
  join_unique h h'
    (String.toList_injective (hs.unique hs' (newline_notMem_join h) (newline_notMem_join h')))

/-- What was parsed is parsed again from its string. -/
theorem parse_string (u : Unicode) (s : String) : ((parse u s).bind fun r => parse u r.string) = parse u s := by
  by_cases hex : ∃ name tag digest, Syntactic u name tag digest ∧ Ends s (join name tag digest).toList
  · obtain ⟨name, tag, digest, h, hs⟩ := hex
    have hparse := parse_eq h hs
    by_cases hlength : 255 < name.length
    · rw [hparse, if_pos hlength]
      rfl
    cases hchecked : checkedDigest digest with
    | error e =>
        rw [hparse, if_neg hlength, hchecked]
        rfl
    | ok d =>
        rw [if_neg hlength, hchecked, Except.map] at hparse
        rw [hparse, Except.bind, Reference.string_of, parse_eq h (.inl rfl), if_neg hlength, hchecked, Except.map]
  · obtain ⟨e, he, -⟩ := parse_eq_error fun name tag digest h hs => hex ⟨name, tag, digest, h, hs⟩
    rw [he]
    rfl

/-! ## What is claimed -/

/-- Letters and digits of ASCII and the low line, with dots and dashes after the first. -/
def IsTag (t : String) : Prop :=
  ∃ c cs, t.toList = c :: cs ∧ (c.isAlphanum || c = '_') = true ∧ cs.length ≤ 127 ∧
    ∀ a ∈ cs, (a.isAlphanum || a = '_' || a = '.' || a = '-') = true

/-- The string is of the form `name[:tag][@digest]`, and these are its parts. -/
structure Form (s name : String) (tag digest : Option String) : Prop where
  isName : Matches nameRegexp name.toList []
  length_le : name.length ≤ 255
  isTag : ∀ t, tag = some t → IsTag t
  isDigest : ∀ d, digest = some d → IsDigest d
  eq_join : s = join name tag digest

/-- References are parsed by their grammar. -/
structure Parses (u : Unicode) (s : String) : Prop where
  ok : (∃ r, parse u s = .ok r) ↔ ∃ name tag digest, Form s name tag digest
  parts : ∀ r, parse u s = .ok r → r.string = s ∧
    ∀ name tag digest, Form s name tag digest ↔ r.name = some name ∧ r.tag = tag ∧ r.digest = digest
  raises : ∀ e, parse u s = .error e → e.isZun = true

def IsAscii (t : String) : Prop := ∀ c ∈ t.toList, c.toNat < 128

/-- The string, or the string without a line feed at its end, is made of a name that is not too long, a tag and a
digest as their expressions have them, and is not of the form: because of the line feed, of a letter of the tag
that is not of ASCII, or of a digest that is not supported. -/
def Slips (u : Unicode) (s : String) : Prop :=
  ∃ name tag digest, Syntactic u name tag digest ∧ name.length ≤ 255 ∧ Ends s (join name tag digest).toList ∧
    (s ≠ join name tag digest ∨ (∃ t, tag = some t ∧ ¬ IsAscii t) ∨ ∃ d, digest = some d ∧ ¬ IsDigest d)

theorem isAlphanum_ascii {c : Char} (h : c.isAlphanum = true) : c.toNat < 128 := by
  change ((decide (c.val ≥ 'A'.val ∧ c.val ≤ 'Z'.val) || (decide (c.val ≥ 'a'.val) && decide (c.val ≤ 'z'.val))) ||
    (decide (c.val ≥ '0'.val) && decide (c.val ≤ '9'.val))) = true at h
  simp only [Bool.or_eq_true, Bool.and_eq_true, decide_eq_true_eq, ge_iff_le, UInt32.le_iff_toNat_le] at h
  have hc : c.toNat = c.val.toNat := rfl
  rw [hc]
  simp at h
  omega

theorem isTag_iff {t : String} : IsTag t ↔ Matches (tagRegexp u) t.toList [] ∧ IsAscii t := by
  have hword : ∀ c : Char, c.toNat < 128 → (u.word c = true ↔ (c.isAlphanum || c = '_') = true) := by
    intro c hc
    rw [u.ascii c hc]
  have hascii : ∀ c : Char, (c.isAlphanum || c = '_' || c = '.' || c = '-') = true → c.toNat < 128 := by
    intro c hc
    simp only [Bool.or_eq_true, decide_eq_true_eq] at hc
    rcases hc with ((hc | rfl) | rfl) | rfl
    · exact isAlphanum_ascii hc
    · decide
    · decide
    · decide
  rw [matches_tag_iff]
  constructor
  · rintro ⟨c, cs, ht, hc, hlength, hall⟩
    have hc' : c.toNat < 128 := hascii c (by simp [hc])
    refine ⟨⟨⟨c, cs, ht, (hword c hc').mpr hc, hlength, fun a ha => ?_⟩, rfl⟩, fun a ha => ?_⟩
    · have hall' := hall a ha
      have ha' := hascii a hall'
      rw [u.ascii a ha']
      exact hall'
    · rw [ht] at ha
      rcases List.mem_cons.mp ha with rfl | ha
      · exact hc'
      · exact hascii a (hall a ha)
  · rintro ⟨⟨⟨c, cs, ht, hc, hlength, hall⟩, -⟩, hasciit⟩
    have hmem : ∀ a ∈ c :: cs, a.toNat < 128 := by
      rw [← ht]
      exact hasciit
    refine ⟨c, cs, ht, (hword c (hmem c (List.mem_cons_self ..))).mp hc, hlength, fun a ha => ?_⟩
    rw [← u.ascii a (hmem a (List.mem_cons_of_mem _ ha))]
    exact hall a ha

theorem Form.syntactic (h : Form s name tag digest) : Syntactic u name tag digest where
  name := h.isName
  tag t ht := (isTag_iff.mp (h.isTag t ht)).1
  digest d hd := (h.isDigest d hd).matches

theorem Form.ends (h : Form s name tag digest) : Ends s (join name tag digest).toList :=
  .inl (by rw [h.eq_join])

/-- The parts that a string ends with are a form of it where nothing slips. -/
theorem form_iff (h : Syntactic u name tag digest) (hlength : name.length ≤ 255) :
    Form s name tag digest ↔ s = join name tag digest ∧ (∀ t, tag = some t → IsAscii t) ∧
      ∀ d, digest = some d → IsDigest d := by
  constructor
  · exact fun hform => ⟨hform.eq_join, fun t ht => ((@isTag_iff u t).mp (hform.isTag t ht)).2, hform.isDigest⟩
  · rintro ⟨heq, hascii, hdigest⟩
    exact ⟨h.name, hlength, fun t ht => isTag_iff.mpr ⟨h.tag t ht, hascii t ht⟩, hdigest, heq⟩

/-- Where a string ends with a reference whose digest is supported, it is parsed as it should be if and only if
there are no line feed after it and no other letters in its tag. -/
theorem parses_iff_form (h : Syntactic u name tag digest) (hs : Ends s (join name tag digest).toList)
    (hparse : parse u s = .ok (.of name tag digest)) : Parses u s ↔ Form s name tag digest := by
  constructor
  · intro hparses
    exact ((hparses.parts _ hparse).2 name tag digest).mpr
      ⟨Reference.name_of, Reference.tag_of, Reference.digest_of⟩
  · intro hform
    constructor
    case ok => exact ⟨fun _ => ⟨name, tag, digest, hform⟩, fun _ => ⟨_, hparse⟩⟩
    case parts =>
      intro r hr
      rw [hparse] at hr
      cases hr
      refine ⟨by rw [Reference.string_of, hform.eq_join], fun name' tag' digest' => ?_⟩
      rw [Reference.name_of, Reference.tag_of, Reference.digest_of, Option.some_inj]
      constructor
      · exact fun hform' => h.unique hs hform'.syntactic hform'.ends
      · rintro ⟨rfl, rfl, rfl⟩
        exact hform
    case raises =>
      intro e he
      rw [hparse] at he
      cases he

/-- A reference is parsed by its grammar if and only if it does not slip. -/
theorem parses_iff (u : Unicode) (s : String) : Parses u s ↔ ¬ Slips u s := by
  by_cases hex : ∃ name tag digest, Syntactic u name tag digest ∧ Ends s (join name tag digest).toList
  · obtain ⟨name, tag, digest, h, hs⟩ := hex
    have hparse := parse_eq h hs
    have hslips : Slips u s ↔ name.length ≤ 255 ∧ (s ≠ join name tag digest ∨
        (∃ t, tag = some t ∧ ¬ IsAscii t) ∨ ∃ d, digest = some d ∧ ¬ IsDigest d) := by
      constructor
      · rintro ⟨name', tag', digest', h', hlength, hs', hslip⟩
        obtain ⟨rfl, rfl, rfl⟩ := h.unique hs h' hs'
        exact ⟨hlength, hslip⟩
      · rintro ⟨hlength, hslip⟩
        exact ⟨name, tag, digest, h, hlength, hs, hslip⟩
    by_cases hlength : 255 < name.length
    · rw [if_pos hlength] at hparse
      have hnoform : ∀ name' tag' digest', ¬ Form s name' tag' digest' := by
        intro name' tag' digest' hform
        obtain ⟨rfl, -, -⟩ := h.unique hs hform.syntactic hform.ends
        have := hform.length_le
        omega
      refine iff_of_true ?_ (fun h => absurd (hslips.mp h).1 (by omega))
      constructor
      case ok => simp [hparse, hnoform]
      case parts => simp [hparse]
      case raises => simp [hparse, Error.isZun]
    · rw [if_neg hlength] at hparse
      by_cases hdigest : ∀ d, digest = some d → IsDigest d
      · have hok : parse u s = .ok (.of name tag digest) := by
          rw [hparse, checkedDigest_eq h hdigest]
          rfl
        rw [parses_iff_form h hs hok, form_iff h (Nat.le_of_not_lt hlength), hslips]
        constructor
        · rintro ⟨heq, hascii, -⟩ ⟨-, hne | ⟨t, ht, hnot⟩ | ⟨d, hd, hnot⟩⟩
          · exact hne heq
          · exact hnot (hascii t ht)
          · exact hnot (hdigest d hd)
        · intro hnot
          refine ⟨?_, fun t ht => ?_, hdigest⟩
          · by_contra hne
            exact hnot ⟨Nat.le_of_not_lt hlength, .inl hne⟩
          · by_contra hascii
            exact hnot ⟨Nat.le_of_not_lt hlength, .inr (.inl ⟨t, ht, hascii⟩)⟩
      · simp only [not_forall] at hdigest
        obtain ⟨d, rfl, hnot⟩ := hdigest
        refine iff_of_false (fun hparses => ?_)
          fun hnotslips => hnotslips (hslips.mpr ⟨Nat.le_of_not_lt hlength, .inr (.inr ⟨d, rfl, hnot⟩)⟩)
        obtain ⟨e, he⟩ := checkedDigest_error h hnot
        rw [he] at hparse
        exact absurd (hparses.raises _ hparse) (by simp [Error.isZun])
  · have hnone : ∀ name tag digest, Syntactic u name tag digest → ¬ Ends s (join name tag digest).toList :=
      fun name tag digest h hs => hex ⟨name, tag, digest, h, hs⟩
    obtain ⟨e, he, hzun⟩ := parse_eq_error hnone
    refine iff_of_true ?_ ?_
    · constructor
      case ok => exact ⟨by simp [he], fun ⟨name, tag, digest, hform⟩ =>
        absurd hform.ends (hnone name tag digest hform.syntactic)⟩
      case parts => simp [he]
      case raises =>
        intro e' he'
        rw [he] at he'
        cases he'
        exact hzun
    · rintro ⟨name, tag, digest, h, -, hs, -⟩
      exact hnone name tag digest h hs

end

/-- Letters of ASCII and whatever is not of ASCII. -/
def letters : Unicode where
  word c := c.isAlphanum || c = '_' || 128 ≤ c.toNat
  ascii c hc := by simp [Nat.not_le.mpr hc]

/-- A line feed at the end is dropped. -/
theorem not_parses : ¬ ∀ (u : Unicode) (s : String), Parses u s := by
  intro h
  have hok : parse letters "busybox\n" = .ok (.namedReference "busybox") := by decide +kernel
  have hstring := ((h letters "busybox\n").parts _ hok).1
  exact absurd hstring (by decide +kernel)

end DockerImage

end Zun
