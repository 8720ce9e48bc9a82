import Zun.Common.DockerImage

/-!
# The hosts file of a sandbox

`render` and `own_addresses` of `zun/container/cri/hostsfile.py`, with `_sandbox_hostname` of
`zun/container/cri/driver.py`, and what the API asks of a hostname: `CAPSULE_HOSTNAME` of
`zun/api/controllers/v1/capsules.py` and `hostname` of `zun/api/controllers/v1/schemas/parameter_types.py`.

The name is matched twice against expressions that end in `$`, which is also before a line feed that ends the
string.  What is written is not what was matched but the string.
-/

namespace Zun

open Regex Strings DockerImage

namespace HostsFile

/-! ## The file -/

/-- The lines of `_BASE`, each of which a line feed ends. -/
def baseLines : List String :=
  ["127.0.0.1\tlocalhost",
   "::1\tlocalhost ip6-localhost ip6-loopback",
   "fe00::0\tip6-localnet",
   "ff00::0\tip6-mcastprefix",
   "ff02::1\tip6-allnodes",
   "ff02::2\tip6-allrouters"]

/-- `_BASE`. -/
def base : String := String.join (baseLines.map (· ++ "\n"))

def isNameChar (c : Char) : Bool := c.isAlphanum || c = '.' || c = '-'

/-- `_NAME`, between its anchors.  That of `CAPSULE_HOSTNAME` is the same. -/
def nameRegexp : Regex Char :=
  seq (chars Char.isAlphanum) (opt (seq (star (chars isNameChar)) (chars Char.isAlphanum)))

/-- The text of an address.  A record's addresses have passed `ipaddress.ip_address`. -/
structure Address where
  text : String
  ip : ∀ c ∈ text.toList, (isHex c || c = '.' || c = ':') = true
deriving DecidableEq

/-- What is listed for a network. -/
inductive Entry where
  /-- A dictionary, with its `addr`. -/
  | dict (addr : Option Address)
  | other

/-- The addresses of a record, by network; nothing where they are not a dictionary. -/
abbrev Addresses := Option (List (String × Option (List Entry)))

def addEntry (found : List Address) : Entry → List Address
  | .dict (some addr) => if addr.text ≠ "" ∧ addr ∉ found then found ++ [addr] else found
  | .dict none => found
  | .other => found

def ownAddresses : Addresses → List Address
  | none => []
  | some networks => networks.foldl (fun found network => (network.2.getD []).foldl addEntry found) []

def render (hostname : String) (addresses : List Address) : String :=
  String.join (base ::
    if (anchoredMatch nameRegexp hostname).isSome then
      addresses.map fun addr => addr.text ++ "\t" ++ hostname ++ "\n"
    else [])

/-- A uuid: hexadecimal digits and hyphens. -/
structure Uuid where
  text : String
  hex : ∀ c ∈ text.toList, (isHex c || c = '-') = true
  digit : ∃ c ∈ text.toList, c ≠ '-'

/-- What is read of a container or a capsule. -/
structure Subject where
  hostname : Option String
  uuid : Uuid
  addresses : Addresses

/-- `uuid.replace('-', '')[:12]`. -/
def Uuid.short (uuid : Uuid) : String := String.ofList ((uuid.text.toList.filter (· ≠ '-')).take 12)

def sandboxHostname (subject : Subject) : String :=
  match subject.hostname with
  | none => subject.uuid.short
  | some hostname => if hostname = "" then subject.uuid.short else hostname

/-- The content that `_add_hosts_mount` has written. -/
def content (subject : Subject) : String := render (sandboxHostname subject) (ownAddresses subject.addresses)

/-! ## What the API admits -/

def notNewline (c : Char) : Bool := c ≠ '\n'

/-- `CAPSULE_HOSTNAME`.  What it looks ahead for is one to sixty-three characters. -/
def capsuleHostname (hostname : String) : Bool :=
  (anchoredMatch (seq (chars notNewline) (upTo 62 (chars notNewline))) hostname).isSome &&
    (anchoredMatch nameRegexp hostname).isSome

/-- `hostname` of the parameter types, the second of two under that name. -/
def containerHostname (hostname : String) : Bool :=
  1 ≤ hostname.length && hostname.length ≤ 255 &&
    (anchoredMatch (star (chars fun c => c.isAlphanum || c = '-' || c = '.' || c = '_')) hostname).isSome

/-- The request that a record is made of, with the hostname in it. -/
inductive Request where
  | capsule (hostname : Option String)
  | container (hostname : Option String)

def Request.hostname : Request → Option String
  | capsule hostname => hostname
  | container hostname => hostname

def Request.admitted : Request → Bool
  | capsule hostname => hostname.all capsuleHostname
  | container hostname => hostname.all containerHostname

/-! ## What the file should say -/

/-- Letters, digits, dots and hyphens, with a letter or a digit at both ends. -/
def isHostName (s : String) : Bool :=
  s.toList.head?.any Char.isAlphanum && s.toList.getLast?.any Char.isAlphanum && s.toList.all isNameChar

def linesOf : List Char → List (List Char)
  | [] => []
  | c :: s =>
      if c = '\n' then [] :: linesOf s
      else
        match linesOf s with
        | [] => [[c]]
        | l :: ls => (c :: l) :: ls

/-- The lines of a text, without what ends them. -/
def lines (text : String) : List String := (linesOf text.toList).map String.ofList

/-- The names of a line.  They stand after a tab, with blanks between them. -/
def namesOf (line : String) : List Char := (partition '\t' line).2.2.toList.filter (· ≠ ' ')

/-- An address of the record. -/
def Addresses.Has (addresses : Addresses) (addr : Address) : Prop :=
  addr.text ≠ "" ∧ ∃ networks network entries, addresses = some networks ∧ (network, some entries) ∈ networks ∧
    Entry.dict (some addr) ∈ entries

/-- After the base block there is one line for each address of the record, or none when the name is no host
name; and there are no names in the file but host names. -/
def Unforged (subject : Subject) (text : String) : Prop :=
  ∃ own : List Address, own.Nodup ∧ (∀ addr, addr ∈ own ↔ subject.addresses.Has addr) ∧
    lines text = lines base ++
      (if isHostName (sandboxHostname subject) then
        own.map fun addr => addr.text ++ "\t" ++ sandboxHostname subject
      else []) ∧
    ∀ line ∈ lines text, ∀ c ∈ namesOf line, isNameChar c = true

/-! ## Names and their matches -/

variable {w : List Char} {g : Captures Char} {s : String}

theorem isNameChar_of_isAlphanum {c : Char} (h : c.isAlphanum = true) : isNameChar c = true := by
  simp only [isNameChar, h, Bool.true_or]

theorem isHostName_of_short {l : List Char} (hne : l ≠ []) (h : ∀ c ∈ l, c.isAlphanum = true) :
    isHostName (String.ofList l) = true := by
  have hall : l.all isNameChar = true :=
    List.all_eq_true.mpr fun c hc => isNameChar_of_isAlphanum (h c hc)
  simp only [isHostName, String.toList_ofList, hall, List.head?_eq_some_head hne,
    List.getLast?_eq_some_getLast hne, Option.any_some, h _ (List.head_mem hne), h _ (List.getLast_mem hne),
    Bool.and_self]

theorem isNameChar_of_mem (h : isHostName s = true) : ∀ c ∈ s.toList, isNameChar c = true := by
  simp only [isHostName, Bool.and_eq_true] at h
  exact List.all_eq_true.mp h.2

theorem isAlphanum_of_isHex {c : Char} (h : isHex c = true) : c.isAlphanum = true := by
  change (c.isUpper || c.isLower || c.isDigit) = true
  simp only [isHex, Bool.or_eq_true, Bool.and_eq_true, decide_eq_true_eq] at h ⊢
  rcases h with (hdigit | ⟨hlow, hhigh⟩) | ⟨hlow, hhigh⟩
  · exact .inr hdigit
  · have hz : c.val ≤ 'z'.val := UInt32.le_trans hhigh (by decide)
    have hlower : (decide ('a'.val ≤ c.val) && decide (c.val ≤ 'z'.val)) = true :=
      Bool.and_eq_true_iff.mpr ⟨decide_eq_true hlow, decide_eq_true hz⟩
    exact .inl (.inr hlower)
  · have hz : c.val ≤ 'Z'.val := UInt32.le_trans hhigh (by decide)
    have hupper : c.isUpper = true := decide_eq_true ⟨hlow, hz⟩
    exact .inl (.inl hupper)

/-- The expression is that of host names. -/
theorem matches_nameRegexp_iff : Matches nameRegexp w [] ↔ isHostName (String.ofList w) = true := by
  simp only [isHostName, String.toList_ofList, Bool.and_eq_true, Option.any_eq_true, List.all_eq_true]
  constructor
  · intro h
    obtain ⟨w₁, w₂, g₁, g₂, h₁, h₂, rfl, hg⟩ := matches_seq_iff.mp h
    obtain ⟨a, ha, rfl, -⟩ := matches_chars_iff.mp h₁
    refine ⟨⟨⟨a, rfl, ha⟩, ?_⟩, ?_⟩
    · rcases matches_opt_iff.mp h₂ with h₂ | ⟨rfl, -⟩
      · obtain ⟨w₃, w₄, g₃, g₄, -, h₄, rfl, -⟩ := matches_seq_iff.mp h₂
        obtain ⟨b, hb, rfl, -⟩ := matches_chars_iff.mp h₄
        exact ⟨b, by rw [← List.append_assoc, List.getLast?_concat], hb⟩
      · exact ⟨a, rfl, ha⟩
    · intro c hc
      have hallows := h.allows c hc
      simp only [nameRegexp, opt, Regex.allows, Bool.or_eq_true, Bool.or_false] at hallows
      rcases hallows with hc | hc | hc
      · exact isNameChar_of_isAlphanum hc
      · exact hc
      · exact isNameChar_of_isAlphanum hc
  · rintro ⟨⟨⟨a, hhead, ha⟩, b, hlast, hb⟩, hall⟩
    obtain ⟨rest, rfl⟩ := List.head?_eq_some_iff.mp hhead
    refine matches_seq_iff.mpr ⟨[a], rest, [], [], .chars ha, matches_opt_iff.mpr ?_, rfl, rfl⟩
    rcases List.eq_nil_or_concat rest with rfl | ⟨init, c, rfl⟩
    · exact .inr ⟨rfl, rfl⟩
    · rw [List.concat_eq_append, ← List.cons_append, List.getLast?_concat] at hlast
      obtain rfl := Option.some.inj hlast
      have hinit : ∀ x ∈ init, isNameChar x = true := by
        intro x hx
        exact hall x (by simp [hx])
      rw [List.concat_eq_append]
      exact .inl (matches_seq_iff.mpr ⟨init, [c], [], [], matches_star_chars_iff.mpr ⟨hinit, rfl⟩, .chars hb,
        rfl, rfl⟩)

/-- What is matched is a host name, or a host name and a line feed. -/
theorem anchoredMatch_nameRegexp_iff : (anchoredMatch nameRegexp s).isSome = true ↔
    isHostName s = true ∨ ∃ name, isHostName name = true ∧ s = name ++ "\n" := by
  have hgroups : nameRegexp.groups = [] := rfl
  constructor
  · intro h
    obtain ⟨g, hg⟩ := Option.isSome_iff_exists.mp h
    obtain ⟨w, hw, hs⟩ := anchoredMatch_eq_some hg
    obtain rfl := hw.eq_nil hgroups
    have hname := matches_nameRegexp_iff.mp hw
    rcases hs with hs | hs
    · refine .inl ?_
      rw [← hs, String.ofList_toList] at hname
      exact hname
    · refine .inr ⟨String.ofList w, hname, ?_⟩
      rw [← String.toList_inj, hs, String.toList_append, String.toList_ofList]
      rfl
  · have hmatch : ∀ {name : String}, isHostName name = true → Ends s name.toList →
        (anchoredMatch nameRegexp s).isSome = true := by
      intro name hname hs
      have hw : Matches nameRegexp name.toList [] :=
        matches_nameRegexp_iff.mpr (by rw [String.ofList_toList]; exact hname)
      obtain ⟨g, hg⟩ := exists_anchoredMatch hw hs
      rw [hg]
      rfl
    rintro (h | ⟨name, h, rfl⟩)
    · exact hmatch h (.inl rfl)
    · exact hmatch h (.inr (by rw [String.toList_append]; rfl))

/-- What a capsule may be called, with a line feed behind it or without. -/
theorem capsuleHostname_iff : capsuleHostname s = true ↔
    ∃ name, isHostName name = true ∧ name.length ≤ 63 ∧ (s = name ∨ s = name ++ "\n") := by
  have hnewline : ∀ {name : String}, isHostName name = true → '\n' ∉ name.toList :=
    fun h hmem => absurd (isNameChar_of_mem h _ hmem) (by decide)
  have hends : ∀ {name : String}, s = name ∨ s = name ++ "\n" → Ends s name.toList := by
    rintro name (rfl | rfl)
    · exact .inl rfl
    · exact .inr (by rw [String.toList_append]; rfl)
  rw [capsuleHostname, Bool.and_eq_true, anchoredMatch_nameRegexp_iff]
  constructor
  · rintro ⟨hlength, hname⟩
    have hname : ∃ name, isHostName name = true ∧ (s = name ∨ s = name ++ "\n") := by
      rcases hname with h | ⟨name, h, hs⟩
      · exact ⟨s, h, .inl rfl⟩
      · exact ⟨name, h, .inr hs⟩
    obtain ⟨name, h, hs⟩ := hname
    refine ⟨name, h, ?_, hs⟩
    obtain ⟨g, hg⟩ := Option.isSome_iff_exists.mp hlength
    obtain ⟨w, hw, hws⟩ := anchoredMatch_eq_some hg
    have hallows := hw.notMem (a := '\n') (by decide)
    obtain ⟨w₁, w₂, g₁, g₂, h₁, h₂, rfl, -⟩ := matches_seq_iff.mp hw
    obtain ⟨a, -, rfl, -⟩ := matches_chars_iff.mp h₁
    have hlong := (matches_upTo_chars_iff.mp h₂).1
    rw [← String.length_toList, (hends hs).unique hws (hnewline h) hallows]
    exact Nat.succ_le_succ hlong
  · rintro ⟨name, h, hlong, hs⟩
    have hall : ∀ c ∈ name.toList, notNewline c = true :=
      fun c hc => decide_eq_true fun heq => hnewline h (heq ▸ hc)
    have hname : isHostName s = true ∨ ∃ name, isHostName name = true ∧ s = name ++ "\n" := by
      rcases hs with rfl | hs
      · exact .inl h
      · exact .inr ⟨name, h, hs⟩
    refine ⟨?_, hname⟩
    have hs := hends hs
    rw [← String.length_toList] at hlong
    cases hlist : name.toList with
    | nil =>
        rw [isHostName, hlist] at h
        cases h
    | cons c rest =>
        rw [hlist] at hall hlong hs
        have hmatch : Matches (seq (chars notNewline) (upTo 62 (chars notNewline))) (c :: rest) [] :=
          matches_seq_iff.mpr ⟨[c], rest, [], [], .chars (hall c (List.mem_cons_self ..)),
            matches_upTo_chars_iff.mpr
              ⟨Nat.le_of_succ_le_succ hlong, fun d hd => hall d (List.mem_cons_of_mem c hd), rfl⟩, rfl, rfl⟩
        obtain ⟨g, hg⟩ := exists_anchoredMatch hmatch hs
        rw [hg]
        rfl

/-! ## The addresses of a record -/

section

variable {found : List Address} {addr : Address}

/-- The entry names the address. -/
def Entry.Names (e : Entry) (addr : Address) : Prop := addr.text ≠ "" ∧ e = .dict (some addr)

theorem mem_addEntry (e : Entry) : addr ∈ addEntry found e ↔ addr ∈ found ∨ e.Names addr := by
  rcases e with (_ | a) | _
  · simp [addEntry, Entry.Names]
  · by_cases h : a.text ≠ "" ∧ a ∉ found
    · simp only [addEntry, if_pos h, Entry.Names, List.mem_append, List.mem_singleton, Entry.dict.injEq,
        Option.some.injEq]
      constructor
      · rintro (hmem | rfl)
        · exact .inl hmem
        · exact .inr ⟨h.1, rfl⟩
      · rintro (hmem | ⟨-, rfl⟩)
        · exact .inl hmem
        · exact .inr rfl
    · simp only [addEntry, if_neg h, Entry.Names, Entry.dict.injEq, Option.some.injEq]
      constructor
      · exact .inl
      · rintro (hmem | ⟨hne, rfl⟩)
        · exact hmem
        · exact Decidable.not_not.mp fun hnot => h ⟨hne, hnot⟩
  · simp [addEntry, Entry.Names]

theorem nodup_addEntry (e : Entry) (h : found.Nodup) : (addEntry found e).Nodup := by
  rcases e with (_ | a) | _
  · exact h
  · by_cases ha : a.text ≠ "" ∧ a ∉ found
    · simp only [addEntry, if_pos ha]
      exact List.nodup_append.mpr ⟨h, List.pairwise_singleton _ a, fun b hb c hc hbc =>
        ha.2 (by rw [← List.mem_singleton.mp hc, ← hbc]; exact hb)⟩
    · simpa only [addEntry, if_neg ha] using h
  · exact h

theorem mem_addEntries (entries : List Entry) :
    addr ∈ entries.foldl addEntry found ↔ addr ∈ found ∨ ∃ e ∈ entries, e.Names addr := by
  induction entries generalizing found with
  | nil => simp
  | cons e entries ih =>
      rw [List.foldl_cons, ih, mem_addEntry, List.exists_mem_cons_iff, or_assoc]

theorem nodup_addEntries (entries : List Entry) (h : found.Nodup) : (entries.foldl addEntry found).Nodup := by
  induction entries generalizing found with
  | nil => exact h
  | cons e entries ih => exact ih (nodup_addEntry e h)

theorem mem_addNetworks (networks : List (String × Option (List Entry))) :
    addr ∈ networks.foldl (fun found network => (network.2.getD []).foldl addEntry found) found ↔
      addr ∈ found ∨ ∃ network ∈ networks, ∃ e ∈ network.2.getD [], e.Names addr := by
  induction networks generalizing found with
  | nil => simp
  | cons network networks ih =>
      rw [List.foldl_cons, ih, mem_addEntries, List.exists_mem_cons_iff, or_assoc]

theorem nodup_addNetworks (networks : List (String × Option (List Entry))) (h : found.Nodup) :
    (networks.foldl (fun found network => (network.2.getD []).foldl addEntry found) found).Nodup := by
  induction networks generalizing found with
  | nil => exact h
  | cons network networks ih => exact ih (nodup_addEntries _ h)

theorem nodup_ownAddresses (addresses : Addresses) : (ownAddresses addresses).Nodup := by
  cases addresses with
  | none => exact List.nodup_nil
  | some networks => exact nodup_addNetworks networks List.nodup_nil

theorem mem_ownAddresses_iff (addresses : Addresses) :
    addr ∈ ownAddresses addresses ↔ addresses.Has addr := by
  cases addresses with
  | none => simp [ownAddresses, Addresses.Has]
  | some networks =>
      rw [ownAddresses, mem_addNetworks]
      constructor
      · rintro (hmem | ⟨⟨network, entries⟩, hnetwork, e, he, hne, rfl⟩)
        · cases hmem
        · cases entries with
          | none => cases he
          | some entries => exact ⟨hne, networks, network, entries, rfl, hnetwork, he⟩
      · rintro ⟨hne, _, network, entries, ⟨⟩, hnetwork, he⟩
        exact .inr ⟨(network, some entries), hnetwork, .dict (some addr), he, hne, rfl⟩

end

/-! ## The lines of a text -/

theorem linesOf_append {l : List Char} (h : '\n' ∉ l) (rest : List Char) :
    linesOf (l ++ '\n' :: rest) = l :: linesOf rest := by
  induction l with
  | nil => simp [linesOf]
  | cons c l ih =>
      have hc : c ≠ '\n' := fun hc => h (hc ▸ List.mem_cons_self ..)
      rw [List.cons_append, linesOf, if_neg hc, ih fun hmem => h (List.mem_cons_of_mem c hmem)]

/-- A text is known by its lines. -/
theorem lines_join {ls : List String} (h : ∀ l ∈ ls, '\n' ∉ l.toList) :
    lines (String.join (ls.map (· ++ "\n"))) = ls := by
  induction ls with
  | nil => rfl
  | cons l ls ih =>
      have hlist : (String.join ((l :: ls).map (· ++ "\n"))).toList =
          l.toList ++ '\n' :: (String.join (ls.map (· ++ "\n"))).toList := by
        rw [List.map_cons, String.join_cons, String.toList_append, String.toList_append, List.append_assoc]
        rfl
      rw [lines, hlist, linesOf_append (h l (List.mem_cons_self ..)), List.map_cons, String.ofList_toList]
      exact congrArg (l :: ·) (ih fun m hm => h m (List.mem_cons_of_mem l hm))

theorem newline_notMem_baseLines : ∀ l ∈ baseLines, '\n' ∉ l.toList := by
  decide

theorem namesOf_baseLines : ∀ l ∈ baseLines, ∀ c ∈ namesOf l, isNameChar c = true := by
  have hall : (baseLines.all fun l => (namesOf l).all isNameChar) = true := by decide
  intro l hl c hc
  exact List.all_eq_true.mp (List.all_eq_true.mp hall l hl) c hc

/-- The line of an address. -/
def Address.line (hostname : String) (addr : Address) : String := addr.text ++ "\t" ++ hostname

theorem Address.notMem {a : Address} {c : Char} (hc : (isHex c || c = '.' || c = ':') = false) :
    c ∉ a.text.toList := by
  intro hmem
  rw [a.ip c hmem] at hc
  cases hc

theorem Address.newline_notMem_line {a : Address} {hostname : String} (h : '\n' ∉ hostname.toList) :
    '\n' ∉ (a.line hostname).toList := by
  simp only [Address.line, String.toList_append, List.mem_append, not_or]
  exact ⟨⟨a.notMem rfl, by decide⟩, h⟩

theorem Address.namesOf_line {a : Address} {hostname : String} :
    namesOf (a.line hostname) = hostname.toList.filter (· ≠ ' ') := by
  have hpart : partition '\t' (a.line hostname) = (a.text, true, hostname) :=
    partition_append hostname (a.notMem rfl)
  rw [namesOf, hpart]

/-! ## What is written -/

section

variable {hostname : String} {addresses : List Address}

theorem render_of_not_match (h : (anchoredMatch nameRegexp hostname).isSome = false) :
    render hostname addresses = base := by
  simp only [render, h, Bool.false_eq_true, if_false, String.join_cons, String.join_nil, String.append_empty]

theorem render_of_match (h : (anchoredMatch nameRegexp hostname).isSome = true) :
    render hostname addresses =
      base ++ String.join (addresses.map fun addr => addr.line hostname ++ "\n") := by
  simp only [render, h, if_true, String.join_cons]
  rfl

/-- A host name is written as it is, once for each address. -/
theorem lines_render (h : isHostName hostname = true) :
    lines (render hostname addresses) = baseLines ++ addresses.map (Address.line hostname) := by
  have hnewline : '\n' ∉ hostname.toList := fun hmem => absurd (isNameChar_of_mem h _ hmem) (by decide)
  have hmap : (addresses.map fun addr => addr.line hostname ++ "\n") =
      (addresses.map (Address.line hostname)).map (· ++ "\n") := by
    rw [List.map_map]
    rfl
  rw [render_of_match (anchoredMatch_nameRegexp_iff.mpr (.inl h)), hmap, base, ← String.join_append,
    ← List.map_append]
  refine lines_join fun l hl => ?_
  rcases List.mem_append.mp hl with hl | hl
  · exact newline_notMem_baseLines l hl
  · obtain ⟨a, -, rfl⟩ := List.mem_map.mp hl
    exact a.newline_notMem_line hnewline

/-- Behind a name that a line feed ends, each address has an empty line too. -/
theorem lines_render_newline {name : String} (h : isHostName name = true) :
    lines (render (name ++ "\n") addresses) =
      baseLines ++ addresses.flatMap fun addr => [addr.line name, ""] := by
  have hnewline : '\n' ∉ name.toList := fun hmem => absurd (isNameChar_of_mem h _ hmem) (by decide)
  have hjoin : String.join (addresses.map fun addr => addr.line (name ++ "\n") ++ "\n") =
      String.join ((addresses.flatMap fun addr => [addr.line name, ""]).map (· ++ "\n")) := by
    induction addresses with
    | nil => rfl
    | cons a addresses ih =>
        rw [List.map_cons, String.join_cons, ih, List.flatMap_cons, List.map_append, String.join_append]
        congr 1
        simp only [Address.line, List.map_cons, List.map_nil, String.join_cons, String.join_nil,
          String.append_assoc, String.empty_append, String.append_empty]
  rw [render_of_match (anchoredMatch_nameRegexp_iff.mpr (.inr ⟨name, h, rfl⟩)), hjoin, base,
    ← String.join_append, ← List.map_append]
  refine lines_join fun l hl => ?_
  rcases List.mem_append.mp hl with hl | hl
  · exact newline_notMem_baseLines l hl
  · obtain ⟨a, -, hl⟩ := List.mem_flatMap.mp hl
    rcases List.mem_cons.mp hl with rfl | hl
    · exact a.newline_notMem_line hnewline
    · rw [List.mem_singleton.mp hl]
      exact List.not_mem_nil

end

theorem isHostName_short (uuid : Uuid) : isHostName uuid.short = true := by
  refine isHostName_of_short ?_ ?_
  · obtain ⟨c, hmem, hc⟩ := uuid.digit
    have hfilter : c ∈ uuid.text.toList.filter (· ≠ '-') :=
      List.mem_filter.mpr ⟨hmem, decide_eq_true hc⟩
    intro hnil
    rcases List.take_eq_nil_iff.mp hnil with h | h
    · cases h
    · rw [h] at hfilter
      cases hfilter
  · intro c hc
    obtain ⟨hmem, hne⟩ := List.mem_filter.mp (List.mem_of_mem_take hc)
    have hhex := uuid.hex c hmem
    rw [Bool.or_eq_true] at hhex
    rcases hhex with hhex | hhex
    · exact isAlphanum_of_isHex hhex
    · exact absurd (of_decide_eq_true hhex) (of_decide_eq_true hne)

theorem append_newline_ne_empty (name : String) : name ++ "\n" ≠ "" := by
  intro h
  have hlist := congrArg String.toList h
  rw [String.toList_append] at hlist
  exact absurd (List.append_eq_nil_iff.mp hlist).2 (by decide)

theorem isHostName_append_newline (name : String) : isHostName (name ++ "\n") = false := by
  refine Bool.eq_false_iff.mpr fun h => ?_
  have hchar := isNameChar_of_mem h '\n' (by rw [String.toList_append]; exact List.mem_append_right _ (by decide))
  exact absurd hchar (by decide)

theorem lines_base : lines base = baseLines := lines_join newline_notMem_baseLines

theorem namesOf_written {hostname : String} (h : isHostName hostname = true) (addresses : List Address) :
    ∀ line ∈ baseLines ++ addresses.map (Address.line hostname), ∀ c ∈ namesOf line, isNameChar c = true := by
  intro line hline c hc
  rcases List.mem_append.mp hline with hline | hline
  · exact namesOf_baseLines line hline c hc
  · obtain ⟨a, -, rfl⟩ := List.mem_map.mp hline
    rw [a.namesOf_line] at hc
    exact isNameChar_of_mem h c (List.mem_of_mem_filter hc)

theorem unforged_content_iff (subject : Subject) : Unforged subject (content subject) ↔
    ∀ name, isHostName name = true → sandboxHostname subject = name ++ "\n" →
      ownAddresses subject.addresses = [] := by
  have hnodup := nodup_ownAddresses subject.addresses
  have hmem : ∀ addr, addr ∈ ownAddresses subject.addresses ↔ subject.addresses.Has addr := fun _ =>
    mem_ownAddresses_iff subject.addresses
  rw [content]
  generalize ownAddresses subject.addresses = own at hnodup hmem ⊢
  by_cases hname : isHostName (sandboxHostname subject) = true
  · refine iff_of_true ⟨own, hnodup, hmem, ?_, ?_⟩ fun name _ hhost => ?_
    · rw [lines_render hname, lines_base, if_pos hname]
      rfl
    · rw [lines_render hname]
      exact namesOf_written hname own
    · rw [hhost, isHostName_append_newline] at hname
      cases hname
  · by_cases hnewline : ∃ name, isHostName name = true ∧ sandboxHostname subject = name ++ "\n"
    · obtain ⟨name, h, hhost⟩ := hnewline
      constructor
      · rintro ⟨own', hnodup', hmem', hlines, hnames⟩ - - -
        rw [hhost, lines_render_newline h, lines_base, if_neg (by rw [isHostName_append_newline]; decide),
          List.append_nil, List.append_right_eq_self, List.flatMap_eq_nil_iff] at hlines
        refine List.eq_nil_iff_forall_not_mem.mpr fun a ha => ?_
        cases hlines a ha
      · intro hown
        obtain rfl := hown name h hhost
        refine ⟨[], hnodup, hmem, ?_, ?_⟩
        · rw [hhost, lines_render_newline h, lines_base, List.map_nil, ite_self, List.flatMap_nil]
        · rw [hhost, lines_render_newline h, List.flatMap_nil, List.append_nil]
          exact namesOf_baseLines
    · have hrender : render (sandboxHostname subject) own = base := by
        refine render_of_not_match (Bool.eq_false_iff.mpr fun hmatch => ?_)
        rcases anchoredMatch_nameRegexp_iff.mp hmatch with h | h
        · exact hname h
        · exact hnewline h
      refine iff_of_true ⟨own, hnodup, hmem, ?_, ?_⟩ fun name h hhost => absurd ⟨name, h, hhost⟩ hnewline
      · rw [hrender, if_neg hname, List.append_nil]
      · rw [hrender, lines_base]
        exact namesOf_baseLines

/-- The file is forged by a line feed behind a host name, and by nothing else. -/
theorem unforged_iff (subject : Subject) : Unforged subject (content subject) ↔
    ¬ ((∃ addr, subject.addresses.Has addr) ∧
      ∃ name, isHostName name = true ∧ subject.hostname = some (name ++ "\n")) := by
  rw [unforged_content_iff, not_and]
  constructor
  · intro h hhas hname
    obtain ⟨name, hname, hhost⟩ := hname
    obtain ⟨addr, haddr⟩ := hhas
    have hown : ownAddresses subject.addresses = [] := h name hname (by
      simp only [sandboxHostname, hhost, if_neg (append_newline_ne_empty name)])
    rw [← mem_ownAddresses_iff, hown] at haddr
    cases haddr
  · intro h name hname hhost
    refine List.eq_nil_iff_forall_not_mem.mpr fun addr hmem => ?_
    refine h ⟨addr, (mem_ownAddresses_iff _).mp hmem⟩ ⟨name, hname, ?_⟩
    -- a name made of the uuid has no line feed
    have hshort : subject.uuid.short ≠ name ++ "\n" := fun hshort => by
      have hhostname := isHostName_short subject.uuid
      rw [hshort, isHostName_append_newline] at hhostname
      cases hhostname
    simp only [sandboxHostname] at hhost
    split at hhost
    · exact absurd hhost hshort
    · next hostname heq =>
      split at hhost
      · exact absurd hhost hshort
      · rw [heq, hhost]

def hostUuid : Uuid := ⟨"5c9d", List.all_eq_true.mp (by decide), ⟨'5', by decide, by decide⟩⟩

/-- A line feed behind the name, which the API admits, is an empty line in the file. -/
theorem not_unforged : ¬ ∀ (request : Request) (uuid : Uuid) (addresses : Addresses),
    request.admitted = true →
      Unforged ⟨request.hostname, uuid, addresses⟩ (content ⟨request.hostname, uuid, addresses⟩) := by
  intro h
  have hunforged := h (.capsule (some "web\n")) hostUuid
    (some [("net", some [.dict (some ⟨"10.0.0.5", List.all_eq_true.mp (by decide)⟩)])]) (by decide)
  have hnone := (unforged_content_iff _).mp hunforged "web" (by decide) (by decide)
  exact absurd hnone (by decide)

end HostsFile

end Zun
