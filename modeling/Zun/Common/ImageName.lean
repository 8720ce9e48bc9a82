import Zun.Common.DockerImage

/-!
# Names of images

`parse_image_name` and `image_reference` of `zun/common/utils.py`.  The first makes a repository and a tag of a
string, with a registry before a name that has none; the second puts the two together.

Whether a name has a registry is told by its first component: by a dot or a colon in it, or because it is
`localhost`.  The registry that is put before a name is not asked whether it would be told.
-/

namespace Zun

open Regex DockerImage

namespace ImageName

/-! ## The model -/

structure Conf where
  /-- `CONF.default_image_driver`. -/
  defaultImageDriver : String := "docker"
  /-- `CONF.docker.default_registry`. -/
  defaultRegistry : Option String := none
deriving DecidableEq

variable (conf : Conf) (u : Unicode)

/-- The registry that a name without one gets: the domain of the one that is asked for, or the default. -/
def registryOf (registry : Option String) : Option String :=
  match registry with
  | some domain => some domain
  | none => entry conf.defaultRegistry

/-- `parse_image_name`.  The registry is given by its domain. -/
def parseImageName (image : String) (driver registry : Option String) : Except Error (String × String) := do
  let imageParts ← parse u image
  let imageRepo := imageParts.name.getD ""
  if driver.getD conf.defaultImageDriver = "glance" then .ok (imageRepo, "")
  else
    -- a digest outranks a tag
    let imageTag := match entry imageParts.digest, entry imageParts.tag with
      | some digest, _ => digest
      | none, some tag => tag
      | none, none => "latest"
    let (domain, _) := splitHostname imageRepo
    match registryOf conf registry with
    | some registry =>
        if domain = "" then .ok (registry ++ "/" ++ imageRepo, imageTag) else .ok (imageRepo, imageTag)
    | none => .ok (imageRepo, imageTag)

/-- `image_reference`. -/
def imageReference (repo tag : String) : String :=
  if tag = "" then repo else repo ++ (if tag.toList.contains ':' then "@" else ":") ++ tag

/-! ## What is claimed -/

/-- Which image of a repository. -/
inductive Which where
  | tag (t : String)
  | digest (d : String)
deriving DecidableEq

/-- A digest, or a tag, which is `latest` where there is none. -/
def which (tag digest : Option String) : Which :=
  match digest with
  | some d => .digest d
  | none => .tag (tag.getD "latest")

def Which.text : Which → String
  | tag t => t
  | digest d => d

/-- The repository of a name, with a registry before it once. -/
def repository (registry : Option String) (name : String) : String :=
  match registry with
  | some registry => if (splitHostname name).1 = "" then registry ++ "/" ++ name else name
  | none => name

/-- The image that a reference names. -/
def imageOf (registry : Option String) (r : Reference) : String × Which :=
  (repository registry (r.name.getD ""), which r.tag r.digest)

/-- The repository and the tag of a string are a normal form of it: what they stand for has the same, and another
string that has them names the same image. -/
structure Normal (registry : Option String) (s : String) : Prop where
  again : ∀ repo tag, parseImageName conf u s (some "docker") registry = .ok (repo, tag) →
    parseImageName conf u (imageReference repo tag) (some "docker") registry = .ok (repo, tag)
  same : ∀ s' r r', parse u s = .ok r → parse u s' = .ok r' →
    parseImageName conf u s' (some "docker") registry = parseImageName conf u s (some "docker") registry →
      imageOf (registryOf conf registry) r' = imageOf (registryOf conf registry) r

/-! ## What a string is parsed to -/

/-- Parts that a string can be parsed to. -/
structure Parts (u : Unicode) (name : String) (tag digest : Option String) : Prop where
  syntactic : Syntactic u name tag digest
  length_le : name.length ≤ 255
  isDigest : ∀ d, digest = some d → IsDigest d

section

variable {conf u} {registry : Option String} {name s : String} {tag digest : Option String} {r : Reference}

theorem parse_ok (h : parse u s = .ok r) : ∃ name tag digest, Parts u name tag digest ∧
    Ends s (join name tag digest).toList ∧ r = .of name tag digest := by
  by_cases hex : ∃ name tag digest, Syntactic u name tag digest ∧ Ends s (join name tag digest).toList
  · obtain ⟨name, tag, digest, hsyntactic, hs⟩ := hex
    rw [parse_eq hsyntactic hs] at h
    split at h
    · cases h
    · next hlength =>
      refine ⟨name, tag, digest, ⟨hsyntactic, Nat.le_of_not_lt hlength, ?_⟩, hs, ?_⟩
      · rintro d rfl
        by_contra hd
        obtain ⟨e, he⟩ := checkedDigest_error hsyntactic hd
        rw [he] at h
        cases h
      · cases hchecked : checkedDigest digest with
        | error e => simp [hchecked, Except.map] at h
        | ok d =>
            simp only [hchecked, Except.map, Except.ok.injEq] at h
            exact h.symm
  · obtain ⟨e, he, -⟩ := parse_eq_error fun name tag digest hsyntactic hs => hex ⟨name, tag, digest, hsyntactic, hs⟩
    rw [he] at h
    cases h

theorem parse_parts (h : Parts u name tag digest) (hs : Ends s (join name tag digest).toList) :
    parse u s = .ok (.of name tag digest) := by
  rw [parse_eq h.syntactic hs, if_neg (Nat.not_lt.mpr h.length_le), checkedDigest_eq h.syntactic h.isDigest]
  rfl

/-- The normal form of a string that is parsed. -/
theorem parseImageName_eq (h : Parts u name tag digest) (hs : Ends s (join name tag digest).toList) :
    parseImageName conf u s (some "docker") registry =
      .ok (repository (registryOf conf registry) name, (which tag digest).text) := by
  have htag : (match entry digest, entry tag with
      | some digest, _ => digest
      | none, some tag => tag
      | none, none => "latest") = (which tag digest).text := by
    rw [entry_digest h.syntactic, entry_tag h.syntactic]
    cases digest <;> cases tag <;> rfl
  simp only [parseImageName, parse_parts h hs, bind, Except.bind, Reference.name_of, Reference.tag_of,
    Reference.digest_of, Option.getD_some, htag, repository,
    if_neg (show ¬ ("docker" : String) = "glance" by decide)]
  cases hsplit : splitHostname name with
  | mk domain rest =>
      cases registryOf conf registry with
      | none => rfl
      | some registry => by_cases hdomain : domain = "" <;> simp [hdomain]

/-! ## Tags and digests -/

/-- The tag, and the digest, of the reference that a repository and a tag are put together to. -/
def Which.parts : Which → Option String × Option String
  | .tag t => (some t, none)
  | .digest d => (none, some d)

theorem colon_mem_digest {d : String} (h : IsDigest d) : ':' ∈ d.toList := by
  obtain ⟨algorithm, hex, size, rfl, -⟩ := h
  simp

theorem matches_latest (u : Unicode) : Matches (tagRegexp u) ("latest" : String).toList [] :=
  (isTag_iff.mp ⟨'l', ['a', 't', 'e', 's', 't'], rfl, by decide, by decide, List.all_eq_true.mp (by decide)⟩).1

/-- What a normal form has in the place of the tag is a tag or a digest, which a colon tells. -/
theorem which_cases (h : Parts u name tag digest) :
    (∃ d, which tag digest = .digest d ∧ IsDigest d ∧ Matches digestRegexp d.toList []) ∨
      ∃ t, which tag digest = .tag t ∧ Matches (tagRegexp u) t.toList [] := by
  cases digest with
  | some d => exact .inl ⟨d, rfl, h.isDigest d rfl, h.syntactic.digest d rfl⟩
  | none => cases tag with
    | some t => exact .inr ⟨t, rfl, h.syntactic.tag t rfl⟩
    | none => exact .inr ⟨"latest", rfl, matches_latest u⟩

theorem text_ne_empty (h : Parts u name tag digest) : (which tag digest).text ≠ "" := by
  rcases which_cases h with ⟨d, hwhich, hd, -⟩ | ⟨t, hwhich, ht⟩
  · rw [hwhich]
    rintro rfl
    exact absurd (colon_mem_digest hd) (by decide)
  · rw [hwhich]
    rintro rfl
    obtain ⟨⟨c, cs, hnil, -⟩, -⟩ := matches_tag_iff.mp ht
    simp at hnil

theorem newline_notMem_text (h : Parts u name tag digest) : '\n' ∉ (which tag digest).text.toList := by
  rcases which_cases h with ⟨d, hwhich, -, hd⟩ | ⟨t, hwhich, ht⟩
  · rw [hwhich]
    exact hd.notMem rfl
  · rw [hwhich]
    exact newline_notMem_tag ht

/-- The two are told apart by a colon, so one text stands for one of them. -/
theorem which_unique {name' : String} {tag' digest' : Option String} (h : Parts u name tag digest)
    (h' : Parts u name' tag' digest') (heq : (which tag digest).text = (which tag' digest').text) :
    which tag digest = which tag' digest' := by
  rcases which_cases h with ⟨d, hwhich, hd, -⟩ | ⟨t, hwhich, ht⟩
  · rcases which_cases h' with ⟨d', hwhich', -, -⟩ | ⟨t', hwhich', ht'⟩
    · rw [hwhich, hwhich'] at heq ⊢
      exact congrArg Which.digest heq
    · rw [hwhich, hwhich'] at heq
      obtain rfl : d = t' := heq
      exact absurd (colon_mem_digest hd) (colon_notMem_tag ht')
  · rcases which_cases h' with ⟨d', hwhich', hd', -⟩ | ⟨t', hwhich', -⟩
    · rw [hwhich, hwhich'] at heq
      obtain rfl : t = d' := heq
      exact absurd (colon_mem_digest hd') (colon_notMem_tag ht)
    · rw [hwhich, hwhich'] at heq ⊢
      exact congrArg Which.tag heq

/-- What is put together again. -/
theorem imageReference_eq (h : Parts u name tag digest) (repo : String) :
    imageReference repo (which tag digest).text =
      join repo (which tag digest).parts.1 (which tag digest).parts.2 := by
  rw [imageReference, if_neg (text_ne_empty h)]
  rcases which_cases h with ⟨d, hwhich, hd, -⟩ | ⟨t, hwhich, ht⟩
  · rw [hwhich]
    simp [Which.text, Which.parts, join, tagPart, digestPart, colon_mem_digest hd, String.append_assoc]
  · rw [hwhich]
    simp [Which.text, Which.parts, join, tagPart, digestPart, colon_notMem_tag ht, String.append_assoc]

/-- A repository that is a name has the parts that its normal form is put together of. -/
theorem Parts.again (h : Parts u name tag digest) {repo : String} (hrepo : Matches nameRegexp repo.toList [])
    (hlength : repo.length ≤ 255) :
    Parts u repo (which tag digest).parts.1 (which tag digest).parts.2 := by
  rcases which_cases h with ⟨d, hwhich, hd, hmatches⟩ | ⟨t, hwhich, ht⟩
  · rw [hwhich]
    refine ⟨⟨hrepo, by simp [Which.parts], ?_⟩, hlength, ?_⟩
    · rintro _ ⟨⟩
      exact hmatches
    · rintro _ ⟨⟩
      exact hd
  · rw [hwhich]
    refine ⟨⟨hrepo, ?_, by simp [Which.parts]⟩, hlength, by simp [Which.parts]⟩
    rintro _ ⟨⟩
    exact ht

theorem which_parts (w : Which) : which w.parts.1 w.parts.2 = w := by
  cases w <;> rfl

/-- A repository that is a name and needs no other registry is found again. -/
theorem again_of_name (h : Parts u name tag digest) {repo : String} (hrepo : Matches nameRegexp repo.toList [])
    (hlength : repo.length ≤ 255) (hregistry : repository (registryOf conf registry) repo = repo) :
    parseImageName conf u (imageReference repo (which tag digest).text) (some "docker") registry =
      .ok (repo, (which tag digest).text) := by
  rw [imageReference_eq h, parseImageName_eq (h.again hrepo hlength) (.inl rfl), hregistry, which_parts]

/-! ## A registry that is put before a name again -/

/-- A name with a tag behind it does not end with the name and a slash before it. -/
theorem name_ne_slash {domain t : String} (h : Matches nameRegexp name.toList [])
    (ht : Matches (tagRegexp u) t.toList []) : domain ++ "/" ++ name ≠ name ++ ":" ++ t := by
  intro heq
  have hlist : name.toList ++ ':' :: t.toList = domain.toList ++ '/' :: name.toList := by
    simpa using (congrArg String.toList heq).symm
  rcases List.append_eq_append_iff.mp hlist with ⟨c, -, hc⟩ | ⟨c, hname, hc⟩
  · cases c with
    | nil => exact absurd (List.cons.inj hc).1 (by decide)
    | cons a c =>
        -- the slash is in the tag
        have hmem : '/' ∈ t.toList := by
          rw [(List.cons.inj hc).2]
          simp
        exact slash_notMem_tag ht hmem
  · cases c with
    | nil => exact absurd (List.cons.inj hc).1 (by decide)
    | cons a c =>
        -- the colon is in the name, and the tag is what comes after it
        exact slash_notMem_tag ht (slash_of_colon h (List.cons.inj hc).2)

theorem length_ne {domain text : String} : domain ++ "/" ++ name ++ text ≠ name := by
  intro heq
  have := congrArg String.length heq
  simp only [String.length_append] at this
  have hslash : ("/" : String).length = 1 := rfl
  omega

/-- A string ends with no line feed where what it was put together of last has none. -/
theorem eq_of_ends {x text : String} {w : List Char} (h : Ends (x ++ text) w) (htext : text ≠ "")
    (hnewline : '\n' ∉ text.toList) : (x ++ text).toList = w := by
  rcases h with h | h
  · exact h
  · have hlast := congrArg List.getLast? h
    rw [String.toList_append, List.getLast?_append, List.getLast?_append] at hlast
    cases hget : text.toList.getLast? with
    | none =>
        rw [List.getLast?_eq_none_iff] at hget
        exact absurd (String.toList_injective hget) htext
    | some c =>
        simp only [hget, Option.some_or, List.getLast?_singleton, Option.some_inj] at hlast
        rw [hlast] at hget
        exact absurd (List.mem_of_getLast? hget) hnewline

/-- What a name with a registry before it is put together to is not parsed to the name alone. -/
theorem not_parsed_to_name {domain : String} {tag' digest' : Option String} (h : Parts u name tag digest)
    (h' : Parts u name tag' digest') (htext : (which tag' digest').text = (which tag digest).text) :
    ¬ Ends (imageReference (domain ++ "/" ++ name) (which tag digest).text) (join name tag' digest').toList := by
  intro hs
  have hwhich := which_unique h' h htext
  rw [← hwhich] at hs
  have heq : imageReference (domain ++ "/" ++ name) (which tag' digest').text = join name tag' digest' := by
    refine String.toList_injective ?_
    rw [imageReference, if_neg (text_ne_empty h')] at hs ⊢
    exact eq_of_ends hs (text_ne_empty h') (newline_notMem_text h')
  rw [imageReference_eq h'] at heq
  cases digest' with
  | some d =>
      have hnamed : domain ++ "/" ++ name = name ++ tagPart tag' := by
        simpa [which, Which.parts, join, tagPart, String.append_left_inj] using heq
      cases tag' with
      | none => simp [tagPart] at hnamed
      | some t =>
          refine @name_ne_slash u name domain t h'.syntactic.name (h'.syntactic.tag t rfl) ?_
          simpa [tagPart, String.append_assoc] using hnamed
  | none => cases tag' with
    | none =>
        refine @length_ne name domain ":latest" ?_
        simpa [which, Which.parts, join, tagPart, digestPart] using heq
    | some t => simp [which, Which.parts, join, tagPart, digestPart, String.append_left_inj] at heq

/-- The registry of a name without one makes it a name, and is told from that. -/
def Told (registry : Option String) (name : String) : Prop :=
  ∀ domain, registry = some domain → (splitHostname name).1 = "" →
    Matches nameRegexp (domain ++ "/" ++ name).toList [] ∧ (domain ++ "/" ++ name).length ≤ 255 ∧
      (splitHostname (domain ++ "/" ++ name)).1 ≠ ""

theorem repository_of_registry {registry : Option String} (h : (splitHostname name).1 ≠ "") :
    repository registry name = name := by
  cases registry with
  | none => rfl
  | some domain => simp only [repository, if_neg h]

theorem repository_of_no_registry {domain : String} (h : (splitHostname name).1 = "") :
    repository (some domain) name = domain ++ "/" ++ name := by
  simp only [repository, if_pos h]

/-- A repository that needs no other registry is a name. -/
theorem repository_told {registry : Option String} (h : Parts u name tag digest) (htold : Told registry name) :
    Matches nameRegexp (repository registry name).toList [] ∧ (repository registry name).length ≤ 255 ∧
      repository registry (repository registry name) = repository registry name := by
  by_cases hdomain : (splitHostname name).1 = ""
  · cases registry with
    | none => exact ⟨h.syntactic.name, h.length_le, rfl⟩
    | some domain =>
        obtain ⟨hname, hlength, htoldAgain⟩ := htold domain rfl hdomain
        rw [repository_of_no_registry hdomain]
        exact ⟨hname, hlength, repository_of_registry htoldAgain⟩
  · have hrepository : repository registry name = name := repository_of_registry hdomain
    rw [hrepository]
    exact ⟨h.syntactic.name, h.length_le, hrepository⟩

/-- The normal form of a name is one if and only if the name has a registry, gets none, or is told from the
registry that it gets. -/
theorem normal_iff (conf : Conf) (u : Unicode) (registry : Option String) (s : String) (r : Reference)
    (h : parse u s = .ok r) :
    Normal conf u registry s ↔ Told (registryOf conf registry) (r.name.getD "") := by
  obtain ⟨name, tag, digest, hparts, hs, rfl⟩ := parse_ok h
  rw [Reference.name_of, Option.getD_some]
  have hform := @parseImageName_eq conf u registry name s tag digest hparts hs
  constructor
  · intro hnormal domain hregistry hdomain
    have hagain := hnormal.again _ _ hform
    have hrepository : repository (registryOf conf registry) name = domain ++ "/" ++ name := by
      simp [repository, hregistry, hdomain]
    rw [hrepository] at hagain
    cases hparse : parse u (imageReference (domain ++ "/" ++ name) (which tag digest).text) with
    | error e => simp [parseImageName, hparse, bind, Except.bind] at hagain
    | ok r' =>
        obtain ⟨name', tag', digest', hparts', hs', -⟩ := parse_ok hparse
        rw [parseImageName_eq hparts' hs', Except.ok.injEq, Prod.mk.injEq] at hagain
        obtain ⟨hrepo, htext⟩ := hagain
        simp only [repository, hregistry] at hrepo
        split at hrepo
        · obtain rfl : name' = name := (String.append_right_inj _).mp hrepo
          exact absurd hs' (not_parsed_to_name hparts hparts' htext)
        · next hdomain' =>
          subst hrepo
          exact ⟨hparts'.syntactic.name, hparts'.length_le, hdomain'⟩
  · intro htold
    obtain ⟨hname, hlength, hregistry⟩ := repository_told hparts htold
    constructor
    case again =>
      intro repo tag' hok
      rw [hform, Except.ok.injEq, Prod.mk.injEq] at hok
      obtain ⟨rfl, rfl⟩ := hok
      exact again_of_name hparts hname hlength hregistry
    case same =>
      intro s' r₁ r' h₁ h' heq
      rw [h] at h₁
      cases h₁
      obtain ⟨name', tag', digest', hparts', hs', rfl⟩ := parse_ok h'
      rw [hform, parseImageName_eq hparts' hs', Except.ok.injEq, Prod.mk.injEq] at heq
      simp only [imageOf, Reference.name_of, Reference.tag_of, Reference.digest_of, Option.getD_some, heq.1,
        which_unique hparts' hparts heq.2]

end

/-! ## A registry that is told from nothing -/

theorem normal_quay : Normal {} letters (some "quay.io") "busybox" ↔ Told (some "quay.io") "busybox" :=
  normal_iff {} letters (some "quay.io") "busybox" (.namedReference "busybox") (by decide +kernel)

/-- A registry without a dot is put before a name twice. -/
theorem not_normal : ¬ ∀ (conf : Conf) (u : Unicode) (registry : Option String) (s : String) (r : Reference),
    parse u s = .ok r → Normal conf u registry s := by
  intro h
  have hnormal := h {} letters (some "registry") "busybox" (.namedReference "busybox") (by decide +kernel)
  have hfirst : parseImageName {} letters "busybox" (some "docker") (some "registry") =
      .ok ("registry/busybox", "latest") := by decide +kernel
  have hagain := hnormal.again _ _ hfirst
  have hsecond : parseImageName {} letters (imageReference "registry/busybox" "latest") (some "docker")
      (some "registry") = .ok ("registry/registry/busybox", "latest") := by decide +kernel
  rw [hsecond] at hagain
  exact absurd hagain (by decide)

end ImageName

end Zun
