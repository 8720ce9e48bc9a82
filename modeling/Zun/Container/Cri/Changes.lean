import Zun.Data.Strings
import Mathlib.Data.Finset.Dedup
import Mathlib.Data.Finset.Union

/-!
# The changes of a commit

`apply_changes` of `zun/container/cri/commit.py`: instructions of a Dockerfile, applied to the config of an image
one after another.  `Written` is what an instruction says in the syntax of its own kind, and `Applied` says what
the config is then to be.

`_command` reads a list that is none as a command for the shell.  That is right for `CMD` and `ENTRYPOINT` and
not for `VOLUME`, which it reads too.
-/

namespace Zun

open Strings

namespace Changes

/-! ## The model -/

/-- The config of an image.  A key that is `null` is as good as none; a set is a dict whose values are empty. -/
structure Config (β : Type) where
  env : Option (List String) := none
  labels : Option (List (String × String)) := none
  exposedPorts : Option (Finset String) := none
  volumes : Option (Finset String) := none
  cmd : Option (List String) := none
  entrypoint : Option (List String) := none
  user : Option String := none
  workingDir : Option String := none
  stopSignal : Option String := none
  /-- The other keys. -/
  rest : β
deriving DecidableEq

/-- `CHANGE_INSTRUCTIONS`. -/
inductive Instruction where
  | cmd | entrypoint | env | expose | label | stopsignal | user | volume | workdir
deriving DecidableEq

def Instruction.ofText : String → Option Instruction
  | "CMD" => some .cmd
  | "ENTRYPOINT" => some .entrypoint
  | "ENV" => some .env
  | "EXPOSE" => some .expose
  | "LABEL" => some .label
  | "STOPSIGNAL" => some .stopsignal
  | "USER" => some .user
  | "VOLUME" => some .volume
  | "WORKDIR" => some .workdir
  | _ => none

/-- `ValueError`. -/
inductive Error where
  | notAnInstruction (instruction : String)
  | shlex (e : ShlexError)
  /-- `expected key=value`. -/
  | expected
  | noValue (key : String)
  | got (word : String)
deriving DecidableEq

def bracketed (s : String) : Bool := s.toList.head? = some '['

/-- The exec form of a command, if the text is one. -/
def execForm (text : String) : Option (List String) :=
  if bracketed text then jsonLoads text else none

/-- `_command`. -/
def command (argument : String) : List String :=
  let text := strip argument
  match execForm text with
  | some value => value
  | none => ["/bin/sh", "-c", text]

/-- The loop of `_pairs`. -/
def keyValues : List String → Except Error (List (String × String))
  | [] => .ok []
  | word :: words =>
      let (key, sep, value) := partition '=' word
      if !sep || key = "" then .error (.got word)
      else ((key, value) :: ·) <$> keyValues words

/-- The legacy form: a key, a blank, and what is left as the value. -/
def legacyPair (argument : String) : Except Error (List (String × String)) :=
  let (key, _, rest) := partition ' ' (strip argument)
  if strip rest = "" then .error (.noValue key) else .ok [(key, strip rest)]

/-- `_pairs`, as `ENV` and `LABEL` use it. -/
def pairs (argument : String) : Except Error (List (String × String)) :=
  match shlexSplit argument with
  | .error e => .error (.shlex e)
  | .ok [] => .error .expected
  | .ok (word :: words) =>
      if word.toList.contains '=' then keyValues (word :: words) else legacyPair argument

/-- The variable of an entry: `e.partition('=')[0]`. -/
def variableOf (entry : String) : String := (partition '=' entry).1

/-- A turn of the loop over the pairs of an `ENV`. -/
def setEnv (env : List String) (pair : String × String) : List String :=
  env.filter (fun entry => variableOf entry ≠ pair.1) ++ [pair.1 ++ "=" ++ pair.2]

/-- `labels[key] = value`: a key that is there keeps its place. -/
def setLabel (labels : List (String × String)) (pair : String × String) : List (String × String) :=
  if labels.any (·.1 = pair.1) then labels.map fun l => if l.1 = pair.1 then pair else l
  else labels ++ [pair]

/-- The ports of an `EXPOSE`. -/
def portsOf (argument : String) : List String :=
  (split argument).map fun port => if port.toList.contains '/' then port else port ++ "/tcp"

/-- The paths of a `VOLUME`. -/
def pathsOf (argument : String) : List String :=
  if bracketed argument then command argument else split argument

/-- The instruction, in upper case, and its argument. -/
def parse (change : String) : String × String :=
  let (instruction, _, argument) := partition ' ' (strip change)
  (upper instruction, strip argument)

variable {β : Type}

/-- A turn of the loop of `apply_changes`. -/
def applyChange (config : Config β) (change : String) : Except Error (Config β) :=
  let (instruction, argument) := parse change
  match Instruction.ofText instruction with
  | none => .error (.notAnInstruction instruction)
  | some .cmd => .ok { config with cmd := some (command argument) }
  | some .entrypoint => .ok { config with entrypoint := some (command argument) }
  | some .env => do
      let env ← pairs argument
      .ok { config with env := some (env.foldl setEnv (config.env.getD [])) }
  | some .label => do
      let labels ← pairs argument
      .ok { config with labels := some (labels.foldl setLabel (config.labels.getD [])) }
  | some .expose =>
      .ok { config with exposedPorts := some (config.exposedPorts.getD ∅ ∪ (portsOf argument).toFinset) }
  | some .volume => .ok { config with volumes := some (config.volumes.getD ∅ ∪ (pathsOf argument).toFinset) }
  | some .stopsignal => .ok { config with stopSignal := some argument }
  | some .user => .ok { config with user := some argument }
  | some .workdir => .ok { config with workingDir := some argument }

/-- `apply_changes`. -/
def applyChanges (config : Config β) (changes : List String) : Except Error (Config β) :=
  changes.foldlM applyChange config

/-! ## What is claimed -/

/-- What an instruction says. -/
inductive Written where
  | cmd (argv : List String)
  | entrypoint (argv : List String)
  | env (pairs : List (String × String))
  | label (pairs : List (String × String))
  | expose (ports : List String)
  | volume (paths : List String)
  | stopsignal (s : String)
  | user (s : String)
  | workdir (s : String)
deriving DecidableEq

/-- The paths that a `VOLUME` lists: in the exec form, if it begins like one, or else as words. -/
def listedPaths (argument : String) : Option (List String) :=
  if bracketed argument then execForm (strip argument) else some (split argument)

/-- What a change says, if it is one. -/
def written (change : String) : Option Written :=
  let (instruction, argument) := parse change
  match Instruction.ofText instruction with
  | none => none
  | some .cmd => some (.cmd (command argument))
  | some .entrypoint => some (.entrypoint (command argument))
  | some .env => (pairs argument).toOption.map .env
  | some .label => (pairs argument).toOption.map .label
  | some .expose => some (.expose (portsOf argument))
  | some .volume => (listedPaths argument).map .volume
  | some .stopsignal => some (.stopsignal argument)
  | some .user => some (.user argument)
  | some .workdir => some (.workdir argument)

namespace Written

def key : Written → Instruction
  | cmd _ => .cmd
  | entrypoint _ => .entrypoint
  | env _ => .env
  | label _ => .label
  | expose _ => .expose
  | volume _ => .volume
  | stopsignal _ => .stopsignal
  | user _ => .user
  | workdir _ => .workdir

def argv (key : Instruction) : Written → Option (List String)
  | cmd argv => if key = .cmd then some argv else none
  | entrypoint argv => if key = .entrypoint then some argv else none
  | _ => none

def text (key : Instruction) : Written → Option String
  | stopsignal s => if key = .stopsignal then some s else none
  | user s => if key = .user then some s else none
  | workdir s => if key = .workdir then some s else none
  | _ => none

/-- The variables, or the labels, that an instruction gives. -/
def gives (key : Instruction) : Written → List (String × String)
  | env pairs => if key = .env then pairs else []
  | label pairs => if key = .label then pairs else []
  | _ => []

/-- The ports, or the paths, that an instruction lists. -/
def lists (key : Instruction) : Written → List String
  | expose ports => if key = .expose then ports else []
  | volume paths => if key = .volume then paths else []
  | _ => []

end Written

/-- The entries of a variable. -/
def Config.entries (config : Config β) (name : String) : List String :=
  (config.env.getD []).filter fun entry => variableOf entry = name

def labelOf (labels : List (String × String)) (name : String) : Option String :=
  (labels.find? (·.1 = name)).map (·.2)

def Config.label (config : Config β) (name : String) : Option String := labelOf (config.labels.getD []) name

/-- The value that was last given to a name. -/
def lastGiven (pairs : List (String × String)) (name : String) : Option String :=
  ((pairs.filter (·.1 = name)).getLast?).map (·.2)

/-- The config is the one before, with what the instructions say. -/
structure Applied (config : Config β) (ws : List Written) (config' : Config β) : Prop where
  /-- A variable that is given has one entry, the last that was given; any other keeps those it has. -/
  env : ∀ name, config'.entries name = match lastGiven (ws.flatMap (Written.gives .env)) name with
    | some value => [name ++ "=" ++ value]
    | none => config.entries name
  labels : ∀ name, config'.label name = (lastGiven (ws.flatMap (Written.gives .label)) name).or (config.label name)
  exposedPorts : config'.exposedPorts.getD ∅ =
    config.exposedPorts.getD ∅ ∪ (ws.flatMap (Written.lists .expose)).toFinset
  volumes : config'.volumes.getD ∅ = config.volumes.getD ∅ ∪ (ws.flatMap (Written.lists .volume)).toFinset
  cmd : config'.cmd = (ws.filterMap (Written.argv .cmd)).getLast?.or config.cmd
  entrypoint : config'.entrypoint = (ws.filterMap (Written.argv .entrypoint)).getLast?.or config.entrypoint
  user : config'.user = (ws.filterMap (Written.text .user)).getLast?.or config.user
  workingDir : config'.workingDir = (ws.filterMap (Written.text .workdir)).getLast?.or config.workingDir
  stopSignal : config'.stopSignal = (ws.filterMap (Written.text .stopsignal)).getLast?.or config.stopSignal
  /-- A key that no instruction names is as it was. -/
  unnamed : (Instruction.env ∉ ws.map Written.key → config'.env = config.env) ∧
    (Instruction.label ∉ ws.map Written.key → config'.labels = config.labels) ∧
    (Instruction.expose ∉ ws.map Written.key → config'.exposedPorts = config.exposedPorts) ∧
    (Instruction.volume ∉ ws.map Written.key → config'.volumes = config.volumes)
  rest : config'.rest = config.rest

/-- The changes are refused, or every one of them says something and that is done. -/
def Applies (config : Config β) (changes : List String) : Prop :=
  ∀ config', applyChanges config changes = .ok config' →
    ∃ ws, changes.mapM written = some ws ∧ Applied config ws config'

/-! ## Changes that go wrong -/

/-- It raises. -/
def Refused (change : String) : Prop :=
  Instruction.ofText (parse change).1 = none ∨
    (Instruction.ofText (parse change).1 = some .env ∨ Instruction.ofText (parse change).1 = some .label) ∧
      ∃ e, pairs (parse change).2 = .error e

/-- A `VOLUME` that begins like a list and is none of strings. -/
def NoList (change : String) : Prop :=
  Instruction.ofText (parse change).1 = some .volume ∧ bracketed (parse change).2 = true ∧
    execForm (strip (parse change).2) = none

/-- An `ENV` in the legacy form, whose key has an equals sign: `shlex` ends the first word at a tab or a line feed
before the sign, and the key goes on to the first blank. -/
def Blurred (change : String) : Prop :=
  Instruction.ofText (parse change).1 = some .env ∧
    ∃ word words, shlexSplit (parse change).2 = .ok (word :: words) ∧ '=' ∉ word.toList ∧
      '=' ∈ (partition ' ' (strip (parse change).2)).1.toList

/-- What an instruction does to a config. -/
def Written.apply (config : Config β) : Written → Config β
  | cmd argv => { config with cmd := some argv }
  | entrypoint argv => { config with entrypoint := some argv }
  | env pairs => { config with env := some (pairs.foldl setEnv (config.env.getD [])) }
  | label pairs => { config with labels := some (pairs.foldl setLabel (config.labels.getD [])) }
  | expose ports => { config with exposedPorts := some (config.exposedPorts.getD ∅ ∪ ports.toFinset) }
  | volume paths => { config with volumes := some (config.volumes.getD ∅ ∪ paths.toFinset) }
  | stopsignal s => { config with stopSignal := some s }
  | user s => { config with user := some s }
  | workdir s => { config with workingDir := some s }

section

variable {config config' : Config β} {change : String} {changes : List String} {w : Written} {ws : List Written}

theorem pathsOf_eq {argument : String} {paths : List String} (h : listedPaths argument = some paths) :
    pathsOf argument = paths := by
  unfold listedPaths at h
  unfold pathsOf
  split at h
  · next hb =>
    delta command
    simp [hb, h]
  · next hb => simpa [hb] using h

theorem applyChange_of_written (h : written change = some w) :
    applyChange config change = .ok (w.apply config) := by
  unfold written at h
  unfold applyChange
  cases hinstruction : Instruction.ofText (parse change).1 with
  | none => simp [hinstruction] at h
  | some instruction =>
      simp only [hinstruction] at h ⊢
      cases instruction
      case env | label =>
        cases hpairs : pairs (parse change).2 with
        | error e => simp [hpairs, Except.toOption] at h
        | ok ps =>
            simp only [hpairs, Except.toOption, Option.map_some, Option.some_inj] at h
            subst h
            rfl
      case volume =>
        obtain ⟨paths, hpaths, rfl⟩ := Option.map_eq_some_iff.mp h
        simp [Written.apply, pathsOf_eq hpaths]
      all_goals
        obtain rfl := Option.some.inj h
        rfl

theorem exists_error_iff : (∃ e, applyChange config change = .error e) ↔ Refused change := by
  unfold applyChange Refused
  cases hinstruction : Instruction.ofText (parse change).1 with
  | none => simp [hinstruction]
  | some instruction =>
      cases instruction
      case env | label =>
        cases hpairs : pairs (parse change).2 with
        | error e => simp [hinstruction, hpairs, bind, Except.bind]
        | ok ps => simp [hinstruction, hpairs, bind, Except.bind]
      all_goals simp [hinstruction]

theorem exists_written (hrefused : ¬ Refused change) (hlist : ¬ NoList change) : ∃ w, written change = some w := by
  unfold Refused at hrefused
  unfold NoList at hlist
  unfold written
  cases hinstruction : Instruction.ofText (parse change).1 with
  | none => simp [hinstruction] at hrefused
  | some instruction =>
      cases instruction
      case env | label =>
        cases hpairs : pairs (parse change).2 with
        | error e => simp [hinstruction, hpairs] at hrefused
        | ok ps => simp [hinstruction, hpairs, Except.toOption]
      case volume =>
        simp only [hinstruction, listedPaths, true_and, not_and] at hlist ⊢
        split
        · next hb =>
          cases hexec : execForm (strip (parse change).2) with
          | none => exact absurd hexec (hlist hb)
          | some paths => simp
        · simp
      all_goals simp [hinstruction]

theorem written_eq_none (h : NoList change) : written change = none := by
  obtain ⟨hinstruction, hb, hexec⟩ := h
  delta written
  simp [hinstruction, listedPaths, hb, hexec]

/-! ## The loop -/

theorem applyChanges_of_written : ∀ {changes : List String} {ws : List Written} {config : Config β},
    changes.mapM written = some ws → applyChanges config changes = .ok (ws.foldl Written.apply config) := by
  intro changes
  induction changes with
  | nil =>
      intro ws config h
      obtain rfl : [] = ws := by simpa using h
      rfl
  | cons change changes ih =>
      intro ws config h
      simp only [List.mapM_cons, Option.bind_eq_bind, Option.bind_eq_some_iff, Option.pure_def,
        Option.some_inj] at h
      obtain ⟨w, hw, ws', hws, rfl⟩ := h
      have hstep : applyChange config change = .ok (w.apply config) := applyChange_of_written hw
      simp only [applyChanges, List.foldlM_cons, hstep, List.foldl_cons]
      exact ih hws

theorem exists_of_not_refused : ∀ {changes : List String} (config : Config β),
    (∀ change ∈ changes, ¬ Refused change) → ∃ config', applyChanges config changes = .ok config' := by
  intro changes
  induction changes with
  | nil => exact fun config _ => ⟨config, rfl⟩
  | cons change changes ih =>
      intro config h
      cases hstep : applyChange config change with
      | error e => exact absurd (exists_error_iff.mp ⟨e, hstep⟩) (h change (List.mem_cons_self ..))
      | ok config₁ =>
          obtain ⟨config', hconfig'⟩ := ih config₁ fun c hc => h c (List.mem_cons_of_mem _ hc)
          refine ⟨config', ?_⟩
          simp only [applyChanges, List.foldlM_cons, hstep]
          exact hconfig'

theorem not_refused_of_ok : ∀ {changes : List String} {config config' : Config β},
    applyChanges config changes = .ok config' → ∀ change ∈ changes, ¬ Refused change := by
  intro changes
  induction changes with
  | nil => exact fun _ change hchange => absurd hchange List.not_mem_nil
  | cons change changes ih =>
      intro config config' h c hc hrefused
      simp only [applyChanges, List.foldlM_cons] at h
      cases hstep : applyChange config change with
      | error e => simp [hstep, bind, Except.bind] at h
      | ok config₁ =>
          rw [hstep] at h
          rcases List.mem_cons.mp hc with rfl | hc
          · obtain ⟨e, he⟩ := (@exists_error_iff _ config _).mpr hrefused
            rw [hstep] at he
            cases he
          · exact ih h c hc hrefused

theorem exists_mapM_written (h : ∀ change ∈ changes, ∃ w, written change = some w) :
    ∃ ws, changes.mapM written = some ws := by
  induction changes with
  | nil => exact ⟨[], rfl⟩
  | cons change changes ih =>
      obtain ⟨w, hw⟩ := h change (List.mem_cons_self ..)
      obtain ⟨ws, hws⟩ := ih fun c hc => h c (List.mem_cons_of_mem _ hc)
      exact ⟨w :: ws, by simp [hw, hws]⟩

theorem written_of_mapM (h : changes.mapM written = some ws) (hchange : change ∈ changes) :
    ∃ w ∈ ws, written change = some w := by
  induction changes generalizing ws with
  | nil => cases hchange
  | cons c changes ih =>
      simp only [List.mapM_cons, Option.bind_eq_bind, Option.bind_eq_some_iff, Option.pure_def,
        Option.some_inj] at h
      obtain ⟨w, hw, ws', hws, rfl⟩ := h
      rcases List.mem_cons.mp hchange with rfl | hchange
      · exact ⟨w, List.mem_cons_self .., hw⟩
      · obtain ⟨w', hw', heq⟩ := ih hws hchange
        exact ⟨w', List.mem_cons_of_mem _ hw', heq⟩

theorem exists_change (h : changes.mapM written = some ws) (hw : w ∈ ws) :
    ∃ change ∈ changes, written change = some w := by
  induction changes generalizing ws with
  | nil =>
      obtain rfl : [] = ws := by simpa using h
      cases hw
  | cons c changes ih =>
      simp only [List.mapM_cons, Option.bind_eq_bind, Option.bind_eq_some_iff, Option.pure_def,
        Option.some_inj] at h
      obtain ⟨w', hw', ws', hws, rfl⟩ := h
      rcases List.mem_cons.mp hw with rfl | hw
      · exact ⟨c, List.mem_cons_self .., hw'⟩
      · obtain ⟨change, hchange, heq⟩ := ih hws hw
        exact ⟨change, List.mem_cons_of_mem _ hchange, heq⟩

/-! ## What the loop leaves -/

/-- A part of the config that every instruction changes as a fold does, all of them change as the fold over all
they say. -/
theorem foldl_part {τ α : Type} {part : Config β → τ} {told : Written → List α} {g : τ → α → τ}
    (h : ∀ config w, part (w.apply config) = (told w).foldl g (part config)) (ws : List Written) :
    ∀ config, part (ws.foldl Written.apply config) = (ws.flatMap told).foldl g (part config) := by
  induction ws with
  | nil => exact fun config => rfl
  | cons w ws ih =>
      intro config
      rw [List.foldl_cons, ih, h, List.flatMap_cons, List.foldl_append]

theorem foldl_kept {τ : Type} {part : Config β → τ} {key : Instruction}
    (h : ∀ (config : Config β) (w : Written), w.key ≠ key → part (w.apply config) = part config) (ws : List Written) :
    ∀ config, key ∉ ws.map Written.key → part (ws.foldl Written.apply config) = part config := by
  induction ws with
  | nil => exact fun config _ => rfl
  | cons w ws ih =>
      intro config hkey
      simp only [List.map_cons, List.mem_cons, not_or] at hkey
      rw [List.foldl_cons, ih _ hkey.2, h config w (Ne.symm hkey.1)]

theorem foldl_getLast? {α : Type} (l : List α) (init : Option α) :
    l.foldl (fun _ a => some a) init = l.getLast?.or init := by
  induction l using List.reverseRecOn with
  | nil => rfl
  | append_singleton l a ih => simp

/-- A key that is set by an instruction has what the last one says. -/
theorem foldl_last {α : Type} {part : Config β → Option α} {told : Written → Option α}
    (h : ∀ config w, part (w.apply config) = (told w).or (part config)) (ws : List Written) (config : Config β) :
    part (ws.foldl Written.apply config) = (ws.filterMap told).getLast?.or (part config) := by
  have hfold := @foldl_part _ _ _ part (fun w => (told w).toList) (fun _ a => some a) (fun config w => by
    rw [h]
    cases told w <;> rfl) ws config
  rw [hfold, foldl_getLast?, ← List.filterMap_eq_flatMap_toList]

theorem foldl_union {part : Config β → Finset String} {told : Written → List String}
    (h : ∀ config w, part (w.apply config) = part config ∪ (told w).toFinset) (ws : List Written)
    (config : Config β) :
    part (ws.foldl Written.apply config) = part config ∪ (ws.flatMap told).toFinset := by
  induction ws generalizing config with
  | nil => simp
  | cons w ws ih => rw [List.foldl_cons, ih, h, List.flatMap_cons, List.toFinset_append, Finset.union_assoc]

theorem lastGiven_append (pairs : List (String × String)) (pair : String × String) (name : String) :
    lastGiven (pairs ++ [pair]) name = if pair.1 = name then some pair.2 else lastGiven pairs name := by
  unfold lastGiven
  split <;> simp [*]

theorem variableOf_entry {key value : String} (h : '=' ∉ key.toList) : variableOf (key ++ "=" ++ value) = key := by
  have := partition_append value h
  simp only [variableOf]
  rw [show ("=" : String) = String.singleton '=' from rfl, this]

theorem setEnv_entries {env : List String} {pair : String × String} (h : '=' ∉ pair.1.toList) (name : String) :
    (setEnv env pair).filter (fun entry => variableOf entry = name) =
      if pair.1 = name then [pair.1 ++ "=" ++ pair.2] else env.filter fun entry => variableOf entry = name := by
  rw [setEnv, List.filter_append, List.filter_filter]
  split
  · next heq => simp [← heq, variableOf_entry h]
  · next hne =>
    have hfilter : ∀ entry ∈ env,
        (decide (variableOf entry = name) && decide (variableOf entry ≠ pair.1)) =
          decide (variableOf entry = name) := by
      intro entry _
      by_cases hentry : variableOf entry = name
      · simp [hentry, Ne.symm hne]
      · simp [hentry]
    rw [List.filter_congr hfilter]
    simp [variableOf_entry h, hne]

theorem foldl_setEnv {pairs : List (String × String)} (env : List String)
    (h : ∀ pair ∈ pairs, '=' ∉ pair.1.toList) (name : String) :
    (pairs.foldl setEnv env).filter (fun entry => variableOf entry = name) =
      match lastGiven pairs name with
      | some value => [name ++ "=" ++ value]
      | none => env.filter fun entry => variableOf entry = name := by
  induction pairs using List.reverseRecOn with
  | nil => rfl
  | append_singleton pairs pair ih =>
      rw [List.foldl_append, List.foldl_cons, List.foldl_nil, setEnv_entries (h pair (by simp)), lastGiven_append]
      split
      · next heq => simp [heq]
      · exact ih fun p hp => h p (List.mem_append_left _ hp)

theorem labelOf_map (labels : List (String × String)) (pair : String × String) (name : String) :
    labelOf (labels.map fun l => if l.1 = pair.1 then pair else l) name =
      if pair.1 = name ∧ labels.any (·.1 = pair.1) then some pair.2 else labelOf labels name := by
  unfold labelOf
  induction labels with
  | nil => simp
  | cons l labels ih =>
      by_cases hl : l.1 = pair.1
      · by_cases hname : pair.1 = name
        · simp [hl, hname]
        · simpa [hl, hname] using ih
      · by_cases hname : l.1 = name
        · have hne : name ≠ pair.1 := hname ▸ hl
          simp [hname, hne, hne.symm]
        · simp only [List.map_cons, if_neg hl, List.any_cons, List.find?_cons, decide_eq_false hl,
            decide_eq_false hname, Bool.false_or]
          exact ih

theorem labelOf_setLabel (labels : List (String × String)) (pair : String × String) (name : String) :
    labelOf (setLabel labels pair) name = if pair.1 = name then some pair.2 else labelOf labels name := by
  unfold setLabel
  split
  · next hany => simp only [labelOf_map, hany, and_true]
  · next hany =>
    have hnone : pair.1 = name → labels.find? (·.1 = name) = none := by
      rintro rfl
      simp only [List.any_eq_true, not_exists, not_and] at hany
      exact List.find?_eq_none.mpr hany
    unfold labelOf
    split
    · next hname => simp [hnone hname, hname]
    · next hname => simp [hname]

theorem foldl_setLabel (pairs labels : List (String × String)) (name : String) :
    labelOf (pairs.foldl setLabel labels) name = (lastGiven pairs name).or (labelOf labels name) := by
  induction pairs using List.reverseRecOn with
  | nil => rfl
  | append_singleton pairs pair ih =>
      rw [List.foldl_append, List.foldl_cons, List.foldl_nil, labelOf_setLabel, lastGiven_append, ih]
      split <;> rfl

/-- Where no variable has an equals sign in its name, what the loop leaves is what was asked for. -/
theorem applied_foldl (config : Config β) (h : ∀ pair ∈ ws.flatMap (Written.gives .env), '=' ∉ pair.1.toList) :
    Applied config ws (ws.foldl Written.apply config) where
  env := by
    intro name
    have henv := @foldl_part _ _ _ (fun config : Config β => config.env.getD []) (Written.gives .env) setEnv
      (fun config w => by cases w <;> rfl) ws config
    simp only [Config.entries, henv]
    exact foldl_setEnv _ h name
  labels := by
    intro name
    have hlabels := @foldl_part _ _ _ (fun config : Config β => config.labels.getD []) (Written.gives .label)
      setLabel (fun config w => by cases w <;> rfl) ws config
    simp only [Config.label, hlabels]
    exact foldl_setLabel _ _ name
  exposedPorts := @foldl_union _ (fun config => config.exposedPorts.getD ∅) (Written.lists .expose)
    (fun config w => by cases w <;> simp [Written.apply, Written.lists]) ws config
  volumes := @foldl_union _ (fun config => config.volumes.getD ∅) (Written.lists .volume)
    (fun config w => by cases w <;> simp [Written.apply, Written.lists]) ws config
  cmd := foldl_last (fun config w => by cases w <;> rfl) ws config
  entrypoint := foldl_last (fun config w => by cases w <;> rfl) ws config
  user := foldl_last (fun config w => by cases w <;> rfl) ws config
  workingDir := foldl_last (fun config w => by cases w <;> rfl) ws config
  stopSignal := foldl_last (fun config w => by cases w <;> rfl) ws config
  unnamed := by
    refine ⟨?_, ?_, ?_, ?_⟩
    · exact foldl_kept (fun config w hw => by cases w <;> simp_all [Written.apply, Written.key]) ws config
    · exact foldl_kept (fun config w hw => by cases w <;> simp_all [Written.apply, Written.key]) ws config
    · exact foldl_kept (fun config w hw => by cases w <;> simp_all [Written.apply, Written.key]) ws config
    · exact foldl_kept (fun config w hw => by cases w <;> simp_all [Written.apply, Written.key]) ws config
  rest := by
    have hrest := @foldl_part _ _ _ (fun config : Config β => config.rest) (fun _ => ([] : List Unit))
      (fun rest _ => rest) (fun config w => by cases w <;> rfl) ws config
    rw [hrest]
    simp

/-! ## Names of variables -/

theorem notMem_of_keyValues {words : List String} {ps : List (String × String)} (h : keyValues words = .ok ps) :
    ∀ pair ∈ ps, '=' ∉ pair.1.toList := by
  induction words generalizing ps with
  | nil =>
      cases h
      simp
  | cons word words ih =>
      simp only [keyValues] at h
      split at h
      · cases h
      · cases hwords : keyValues words with
        | error e => simp [hwords, Functor.map, Except.map] at h
        | ok ps' =>
            simp only [hwords, Functor.map, Except.map, Except.ok.injEq] at h
            subst h
            intro pair hpair
            rcases List.mem_cons.mp hpair with rfl | hpair
            · exact notMem_partition '=' word
            · exact ih hwords pair hpair

theorem legacyPair_ok {argument : String} {ps : List (String × String)} (h : legacyPair argument = .ok ps) :
    ∃ value, ps = [((partition ' ' (strip argument)).1, value)] := by
  simp only [legacyPair] at h
  split at h
  · cases h
  · cases h
    exact ⟨_, rfl⟩

/-- The names that an `ENV` gives have an equals sign just where the change is blurred. -/
theorem blurred_iff {ps : List (String × String)}
    (henv : Instruction.ofText (parse change).1 = some .env) (h : pairs (parse change).2 = .ok ps) :
    Blurred change ↔ ∃ pair ∈ ps, '=' ∈ pair.1.toList := by
  unfold pairs at h
  unfold Blurred
  cases hsplit : shlexSplit (parse change).2 with
  | error e => simp [hsplit] at h
  | ok words =>
      cases words with
      | nil => simp [hsplit] at h
      | cons word words =>
          simp only [hsplit] at h
          by_cases heq : '=' ∈ word.toList
          · rw [if_pos (by simpa using heq)] at h
            constructor
            · rintro ⟨-, word', words', hwords, hnot, -⟩
              cases hwords
              exact absurd heq hnot
            · rintro ⟨pair, hpair, hmem⟩
              exact absurd hmem (notMem_of_keyValues h pair hpair)
          · rw [if_neg (by simpa using heq)] at h
            obtain ⟨value, rfl⟩ := legacyPair_ok h
            simp [henv, heq]

theorem written_env {pair : String × String} (h : written change = some w) (hpair : pair ∈ w.gives .env) :
    Instruction.ofText (parse change).1 = some .env ∧ ∃ ps, pairs (parse change).2 = .ok ps ∧ w = .env ps := by
  unfold written at h
  cases hinstruction : Instruction.ofText (parse change).1 with
  | none => simp [hinstruction] at h
  | some instruction =>
      cases instruction
      case env =>
        simp only [hinstruction] at h
        obtain ⟨ps, hps, rfl⟩ := Option.map_eq_some_iff.mp h
        cases hpairs : pairs (parse change).2 with
        | error e => simp [hpairs, Except.toOption] at hps
        | ok ps' =>
            simp only [hpairs, Except.toOption, Option.some_inj] at hps
            exact ⟨rfl, ps, by rw [hps], rfl⟩
      case label | volume =>
        simp only [hinstruction] at h
        obtain ⟨_, _, rfl⟩ := Option.map_eq_some_iff.mp h
        simp [Written.gives] at hpair
      all_goals
        simp only [hinstruction, Option.some_inj] at h
        subst h
        cases hpair

/-- No name that a change gives has an equals sign, unless it is blurred. -/
theorem notMem_gives (h : changes.mapM written = some ws) (hblurred : ∀ change ∈ changes, ¬ Blurred change) :
    ∀ pair ∈ ws.flatMap (Written.gives .env), '=' ∉ pair.1.toList := by
  intro pair hpair hmem
  obtain ⟨w, hw, hpair⟩ := List.mem_flatMap.mp hpair
  obtain ⟨change, hchange, hwritten⟩ := exists_change h hw
  obtain ⟨henv, ps, hps, rfl⟩ := written_env hwritten hpair
  exact hblurred change hchange ((blurred_iff henv hps).mpr ⟨pair, hpair, hmem⟩)

/-- A name with an equals sign is the variable of no entry, so it cannot have the one that was given. -/
theorem not_given {pair : String × String} (h : Applied config ws config')
    (hpair : pair ∈ ws.flatMap (Written.gives .env)) : '=' ∉ pair.1.toList := by
  intro hmem
  have hnone : config'.entries pair.1 = [] := by
    refine List.filter_eq_nil_iff.mpr fun entry _ => ?_
    intro heq
    rw [← of_decide_eq_true heq] at hmem
    exact notMem_partition '=' entry hmem
  have henv := h.env pair.1
  rw [hnone] at henv
  have hgiven : (lastGiven (ws.flatMap (Written.gives .env)) pair.1).isSome := by
    rw [lastGiven, Option.isSome_map, List.getLast?_isSome, ← List.length_pos_iff]
    exact List.length_pos_of_mem (List.mem_filter.mpr ⟨hpair, by simp⟩)
  obtain ⟨value, hvalue⟩ := Option.isSome_iff_exists.mp hgiven
  rw [hvalue] at henv
  cases henv

end

end Changes

end Zun
