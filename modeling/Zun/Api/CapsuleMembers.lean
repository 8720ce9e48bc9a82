import Zun.Db.Names
import Mathlib.Data.Finset.Dedup
import Mathlib.Data.List.Basic

/-!
# The members of a capsule

The loop of `_do_post` of `zun/api/controllers/v1/capsules.py` that makes a member out of every spec of a
template, with `_generate_name_for_capsule_container`, the name generator, and `_find_container`.

A spec is a dict that the loop rewrites as it goes.  Whether it is of an init container is told by looking for
an equal one among the init containers', which the loop has rewritten already; and the only value that tells
two rewritten dicts apart for sure is the name that was drawn.
-/

namespace Zun

namespace CapsuleMembers

/-! ## The name generator -/

def letters : List String :=
  ["alpha", "beta", "gamma", "delta", "epsilon", "zeta", "eta", "theta", "iota", "kappa", "lambda", "mu", "nu",
    "xi", "omicron", "pi", "rho", "sigma", "tau", "upsilon", "phi", "chi", "psi", "omega"]

/-- What `random.choice` and `random.randint` come up with. -/
structure Draw where
  letter : Fin letters.length
  /-- One less than the number. -/
  number : Fin 24
deriving DecidableEq

/-- `NameGenerator.generate`. -/
def generate (draw : Draw) : String := letters.get draw.letter ++ "-" ++ toString (draw.number.val + 1)

/-! ## Dicts -/

-- JSON that nothing here looks into is of the type `β`.
variable {β : Type}

structure Port where
  containerPort : String
  protocol : Option String := none
deriving DecidableEq

/-- A request: of cpu or of memory. -/
inductive Amount where
  | number (q : Rat)
  | text (s : String)
deriving DecidableEq

/-- `str`. -/
def Amount.str : Amount → String
  | .number q => toString q
  | .text s => s

/-- Python's truth of a value. -/
def Amount.truthy : Amount → Bool
  | .number q => q ≠ 0
  | .text s => s ≠ ""

structure Requests where
  cpu : Option Amount := none
  memory : Option Amount := none
deriving DecidableEq

structure SecurityContext (β : Type) where
  privileged : Option Bool := none
  /-- `capabilities.add`. -/
  add : List String := []
  /-- `seccompProfile.type`. -/
  profile : Option String := none
  rest : β
deriving DecidableEq

structure Healthcheck (β : Type) where
  /-- `k8s_probes`: liveness, readiness and startup. -/
  probes : Option (Option β × Option β × Option β) := none
  /-- `k8s_security_context`. -/
  securityContext : Option (SecurityContext β) := none
deriving DecidableEq

structure VolumeMount where
  name : String
  mountPath : String
  containerUuid : Option String := none
deriving DecidableEq

inductive PolicyName where
  | no | always | onFailure
deriving DecidableEq

structure RestartPolicy where
  maximumRetryCount : Nat
  name : PolicyName
deriving DecidableEq

/-- `container_spec`, which is `container_dict` too.  A template has the keys up to `restartPolicy`, that one in an
init container only.  An empty probe or security context is as good as none. -/
structure Dict (β : Type) where
  image : String
  /-- `environment`, `workdir`, `tty` and `interactive`. -/
  rest : β
  name : Option String := none
  command : Option (List String) := none
  args : Option (List String) := none
  ports : Option (List Port) := none
  resources : Option (Option Requests) := none
  volumeMounts : Option (List VolumeMount) := none
  imagePullPolicy : Option (Option String) := none
  livenessProbe : Option β := none
  readinessProbe : Option β := none
  startupProbe : Option β := none
  securityContext : Option (SecurityContext β) := none
  restartPolicyKey : Option String := none
  projectId : Option String := none
  userId : Option String := none
  exposedPorts : Option (Finset String) := none
  cpu : Option Amount := none
  memory : Option String := none
  healthcheck : Option (Healthcheck β) := none
  privileged : Option Bool := none
  status : Option String := none
  capsuleId : Option Nat := none
  restartPolicy : Option RestartPolicy := none
deriving DecidableEq

inductive Kind where
  | capsuleInitContainer
  | capsuleContainer
deriving DecidableEq

/-- The object a member becomes. -/
structure Member (β : Type) where
  kind : Kind
  uuid : String
  name : String
  values : Dict β
deriving DecidableEq

/-- What `uuidutils.generate_uuid` gives: hexadecimal digits and dashes. -/
structure UuidText where
  text : String
  hex : ∀ c ∈ text.toList, c ∈ "0123456789abcdef-".toList

inductive Error where
  /-- `Invalid`: capabilities that are not allowed. -/
  | capabilities
  /-- `Invalid`: a seccomp profile on the host. -/
  | localhostProfile
  /-- `AttributeError`: `null` has no `lower`. -/
  | attribute
  /-- `InvalidValue`: a count beside a policy that takes none. -/
  | retryCount
  /-- `ContainerAlreadyExists`. -/
  | alreadyExists
deriving DecidableEq

/-! ## The loop -/

/-- Another row of the table of containers. -/
structure Row where
  uuid : String
  name : Option String
  projectId : Option String
deriving DecidableEq

/-- What the loop finds: the capsule, the context, the configuration, the table, and what will be drawn. -/
structure Post where
  capsuleId : Nat
  capsuleUuid : String
  capsuleName : Option String
  /-- `capsule_restart_policy`. -/
  policy : PolicyName
  projectId : Option String
  userId : Option String
  /-- Whether the caller may have `image_pull_policy`. -/
  pullPolicy : Bool := true
  allowedCapabilities : List String := []
  scope : Names.Scope := .none
  others : List Row := []
  draws : Nat → Draw
  uuids : Nat → UuidText

variable (p : Post)

/-- `_generate_name_for_capsule_container`. -/
def nameOf (draw : Draw) : String :=
  match p.capsuleName with
  | none => "capsule-" ++ p.capsuleUuid ++ "-" ++ generate draw
  | some name => "capsule-" ++ name ++ "-" ++ generate draw

/-- `container_restart_policy`. -/
def Post.restartPolicy : RestartPolicy := { maximumRetryCount := 0, name := p.policy }

/-- `_validate_security_context`. -/
def validateSecurityContext (sc : SecurityContext β) : Except Error Unit :=
  if sc.add.any fun c => !(p.allowedCapabilities.map String.toUpper).contains c.toUpper then .error .capabilities
  else if sc.profile = some "Localhost" then .error .localhostProfile
  else .ok ()

/-- Who asks, under which name, and whether a pull policy is taken from them. -/
def Dict.named (d : Dict β) (name : String) : Dict β :=
  let pulls := match d.imagePullPolicy with
    | some (some policy) => policy ≠ ""
    | _ => false
  { d with
    imagePullPolicy := if pulls && !p.pullPolicy then none else d.imagePullPolicy
    projectId := p.projectId
    userId := p.userId
    name := some name }

def Dict.withCommand (d : Dict β) : Dict β :=
  match d.args, d.command with
  | some (a :: args), some (c :: command) =>
      { d with
        command := some (c :: command ++ a :: args)
        args := none }
  | some (a :: args), _ =>
      { d with
        command := some (a :: args)
        args := none }
  | _, _ => d

/-- The key of `exposed_ports` for a port. -/
def Port.key (port : Port) : String := port.containerPort ++ "/" ++ (port.protocol.getD "tcp").toLower

def Dict.withPorts (d : Dict β) : Dict β :=
  match d.ports with
  | some (port :: ports) =>
      { d with
        ports := none
        exposedPorts := some ((port :: ports).map Port.key).toFinset }
  | _ => d

def Dict.withResources (d : Dict β) : Dict β :=
  match d.resources with
  | some (some requests) =>
      { d with
        cpu := (requests.cpu.filter (·.truthy)).or d.cpu
        memory := ((requests.memory.filter (·.truthy)).map (·.str)).or d.memory
        resources := none }
  | _ => d

def Dict.withProbes (d : Dict β) : Dict β :=
  let popped : Dict β :=
    { d with
      livenessProbe := none
      readinessProbe := none
      startupProbe := none }
  if d.livenessProbe.isNone && d.readinessProbe.isNone && d.startupProbe.isNone then popped
  else
    { popped with
      healthcheck := some { d.healthcheck.getD {} with
        probes := some (d.livenessProbe, d.readinessProbe, d.startupProbe) } }

def Dict.withSecurityContext (d : Dict β) : Except Error (Dict β) :=
  match d.securityContext with
  | none => .ok d
  | some sc => do
      validateSecurityContext p sc
      .ok { d with
        securityContext := none
        privileged := if sc.privileged = some true then some true else d.privileged
        healthcheck := some { d.healthcheck.getD {} with
          securityContext := some { sc with privileged := none } } }

def Dict.withPullPolicy (d : Dict β) : Except Error (Dict β) :=
  match d.imagePullPolicy with
  | some none => .error .attribute
  | some (some policy) => .ok { d with imagePullPolicy := some (some policy.toLower) }
  | none => .ok { d with imagePullPolicy := some (some "always") }

/-- The dict as it is when its kind is asked for. -/
def prepare (spec : Dict β) (name : String) : Except Error (Dict β) := do
  let d ← ((spec.named p name).withCommand.withPorts.withResources.withProbes).withSecurityContext p
  let d ← d.withPullPolicy
  .ok { d with
    status := some "Creating"
    capsuleId := p.capsuleId
    restartPolicy := some p.restartPolicy }

/-- `utils.check_for_restart_policy`. -/
def checkForRestartPolicy (policy : RestartPolicy) : Except Error RestartPolicy :=
  match policy.name with
  | .always => if policy.maximumRetryCount ≠ 0 then .error .retryCount else .ok policy
  | .no => .ok { policy with maximumRetryCount := 0 }
  | .onFailure => .ok policy

/-- The restart policy of an init container. -/
def initPolicy (d : Dict β) : RestartPolicy :=
  if d.restartPolicyKey = some "Always" then { maximumRetryCount := 0, name := .always }
  else if p.policy = .always then { maximumRetryCount := 10, name := .onFailure }
  else p.restartPolicy

/-- The members so far, `init_containers_spec` as it stands, and how many turns there were. -/
structure Loop (β : Type) where
  members : List (Member β) := []
  inits : List (Dict β)
  turn : Nat := 0

/-- A row that `_validate_unique_container_name` counts. -/
def Row.counts (name : String) (r : Row) : Bool :=
  match p.scope with
  | .none => false
  | .project => Names.sameName r.name (some name) && r.projectId = p.projectId
  | .global => Names.sameName r.name (some name)

def Member.row (m : Member β) : Row :=
  { uuid := m.uuid
    name := some m.name
    projectId := m.values.projectId }

/-- `new_container.create`. -/
def create (members : List (Member β)) (m : Member β) : Except Error (List (Member β)) :=
  let rows := p.others ++ members.map Member.row
  if rows.any (Row.counts p m.name) || rows.any (·.uuid = m.uuid) then .error .alreadyExists
  else .ok (members ++ [m])

/-- The mounts of a member learn its uuid. -/
def Dict.mounted (d : Dict β) (uuid : String) : Dict β :=
  { d with volumeMounts := d.volumeMounts.map fun mounts =>
      mounts.map fun mount => { mount with containerUuid := some uuid } }

section

variable [DecidableEq β]

/-- Of which kind the dict is, and what is popped from it and written to it for that. -/
def classify (inits : List (Dict β)) (d : Dict β) : Except Error (Kind × Dict β) :=
  if d ∈ inits then do
    let policy ← checkForRestartPolicy (initPolicy p d)
    .ok (.capsuleInitContainer,
      { d with
        restartPolicyKey := none
        restartPolicy := some policy })
  else do
    let policy ← checkForRestartPolicy p.restartPolicy
    .ok (.capsuleContainer, { d with restartPolicy := some policy })

/-- One turn of the loop.  The dict of the turn is one of `init_containers_spec` itself, as long as those last. -/
def step (st : Loop β) (spec : Dict β) : Except Error (Loop β) := do
  let name := nameOf p (p.draws st.turn)
  let uuid := (p.uuids st.turn).text
  let d ← prepare p spec name
  let (kind, values) ← classify p (st.inits.set st.turn d) d
  let members ← create p st.members { kind, uuid, name, values }
  .ok
    { members
      inits := st.inits.set st.turn (values.mounted uuid)
      turn := st.turn + 1 }

structure Template (β : Type) where
  /-- `initContainers`. -/
  inits : List (Dict β)
  /-- `containers`. -/
  mains : List (Dict β)

/-- `merged_containers_spec`, and the loop over it. -/
def addMembers (t : Template β) : Except Error (List (Member β)) :=
  Loop.members <$> (t.inits ++ t.mains).foldlM (step p) { inits := t.inits }

end

inductive FindError where
  /-- `Invalid`: there are none, or more than one and no name. -/
  | invalid
  /-- `ContainerNotFound`. -/
  | notFound (ident : String)
deriving DecidableEq

/-- `_find_container`: the regular containers come first. -/
def findContainer (members : List (Member β)) (ident : Option String) : Except FindError (Member β) :=
  match members.filter (·.kind = .capsuleContainer) ++ members.filter (·.kind = .capsuleInitContainer), ident with
  | [], _ => .error .invalid
  | [m], none => .ok m
  | _ :: _ :: _, none => .error .invalid
  | containers, some ident =>
      match containers.find? fun m => ident = m.name || ident = m.uuid with
      | some m => .ok m
      | none => .error (.notFound ident)

/-! ## What is claimed -/

/-- What a spec says of its member. -/
structure Made (β : Type) where
  kind : Kind
  image : String
  rest : β
  restartPolicy : Option RestartPolicy
deriving DecidableEq

def Member.made (m : Member β) : Made β :=
  { kind := m.kind
    image := m.values.image
    rest := m.values.rest
    restartPolicy := m.values.restartPolicy }

/-- A spec of `initContainers`, and one of `containers`, each with the restart policy of its kind. -/
def madeInit (spec : Dict β) : Made β :=
  { kind := .capsuleInitContainer
    image := spec.image
    rest := spec.rest
    restartPolicy := some (initPolicy p spec) }

def madeMain (spec : Dict β) : Made β :=
  { kind := .capsuleContainer
    image := spec.image
    rest := spec.rest
    restartPolicy := some p.restartPolicy }

def Template.made (t : Template β) : List (Made β) := t.inits.map (madeInit p) ++ t.mains.map (madeMain p)

/-- The members are those of the template, and whoever is named in a request is the one that is found. -/
structure Follows (t : Template β) (members : List (Member β)) : Prop where
  made : members.map Member.made = t.made p
  names : (members.map (·.name)).Nodup
  found : ∀ m ∈ members, findContainer members (some m.name) = .ok m ∧
    findContainer members (some m.uuid) = .ok m

/-! ## Names -/

theorem generate_injective : Function.Injective generate := by
  intro a b h
  have hletters : ∀ l : Fin letters.length, '-' ∉ (letters.get l).toList := by decide +kernel
  have hnumbers : ∀ n : Fin 24, '-' ∉ (toString (n.val + 1)).toList := by decide +kernel
  have hinj : ∀ n m : Fin 24, toString (n.val + 1) = toString (m.val + 1) → n = m := by decide +kernel
  have hlist : (letters.get a.letter).toList ++ '-' :: (toString (a.number.val + 1)).toList =
      (letters.get b.letter).toList ++ '-' :: (toString (b.number.val + 1)).toList := by
    have := congrArg String.toList h
    simpa only [generate, String.toList_append, List.append_assoc, List.singleton_append,
      show ("-" : String).toList = ['-'] from rfl] using this
  obtain ⟨hl, -, hn⟩ := (List.append_cons_inj_of_notMem (hletters a.letter) (hnumbers a.number)).mp hlist
  have hletter : a.letter = b.letter :=
    (show letters.Nodup by decide +kernel).injective_get (String.toList_injective hl)
  have hnumber := hinj _ _ (String.toList_injective hn)
  cases a
  cases b
  simp_all

theorem nameOf_injective : Function.Injective (nameOf p) := by
  intro a b h
  unfold nameOf at h
  split at h
  · exact generate_injective ((String.append_right_inj _).mp h)
  · exact generate_injective ((String.append_right_inj _).mp h)

/-- A name is no uuid. -/
theorem nameOf_ne_uuid (draw : Draw) (uuid : UuidText) : nameOf p draw ≠ uuid.text := by
  intro h
  have hmem : 'p' ∈ uuid.text.toList := by
    rw [← h, nameOf]
    split
    · simp
    · simp
  exact absurd (uuid.hex 'p' hmem) (by decide)

/-! ## What a turn does -/

/-- What the turn of a spec leaves of it until its kind is asked for. -/
structure Keeps (spec d : Dict β) : Prop where
  image : d.image = spec.image
  rest : d.rest = spec.rest
  name : d.name = spec.name
  restartPolicyKey : d.restartPolicyKey = spec.restartPolicyKey

theorem Keeps.trans {a b c : Dict β} (h : Keeps a b) (h' : Keeps b c) : Keeps a c where
  image := h'.image.trans h.image
  rest := h'.rest.trans h.rest
  name := h'.name.trans h.name
  restartPolicyKey := h'.restartPolicyKey.trans h.restartPolicyKey

theorem withCommand_keeps (d : Dict β) : Keeps d d.withCommand := by
  unfold Dict.withCommand
  split <;> exact ⟨rfl, rfl, rfl, rfl⟩

theorem withPorts_keeps (d : Dict β) : Keeps d d.withPorts := by
  unfold Dict.withPorts
  split <;> exact ⟨rfl, rfl, rfl, rfl⟩

theorem withResources_keeps (d : Dict β) : Keeps d d.withResources := by
  unfold Dict.withResources
  split <;> exact ⟨rfl, rfl, rfl, rfl⟩

theorem withProbes_keeps (d : Dict β) : Keeps d d.withProbes := by
  unfold Dict.withProbes
  split <;> exact ⟨rfl, rfl, rfl, rfl⟩

theorem withSecurityContext_keeps {d d' : Dict β} (h : d.withSecurityContext p = .ok d') : Keeps d d' := by
  unfold Dict.withSecurityContext at h
  split at h
  · cases h
    exact ⟨rfl, rfl, rfl, rfl⟩
  · next sc hsc =>
    cases hvalid : validateSecurityContext p sc with
    | error e => simp [hvalid, bind, Except.bind] at h
    | ok u =>
        simp only [hvalid, bind, Except.bind, Except.ok.injEq] at h
        cases h
        exact ⟨rfl, rfl, rfl, rfl⟩

theorem withPullPolicy_keeps {d d' : Dict β} (h : d.withPullPolicy = .ok d') : Keeps d d' := by
  unfold Dict.withPullPolicy at h
  split at h
  · cases h
  · cases h
    exact ⟨rfl, rfl, rfl, rfl⟩
  · cases h
    exact ⟨rfl, rfl, rfl, rfl⟩

variable {p}

theorem prepare_ok {spec d : Dict β} {name : String} (h : prepare p spec name = .ok d) :
    d.name = some name ∧ d.image = spec.image ∧ d.rest = spec.rest ∧
      d.restartPolicyKey = spec.restartPolicyKey ∧ d.restartPolicy = some p.restartPolicy := by
  unfold prepare at h
  cases hsc : ((spec.named p name).withCommand.withPorts.withResources.withProbes).withSecurityContext p with
  | error e => simp [hsc, bind, Except.bind] at h
  | ok d₁ =>
      cases hpull : d₁.withPullPolicy with
      | error e => simp [hsc, hpull, bind, Except.bind] at h
      | ok d₂ =>
          simp only [hsc, hpull, bind, Except.bind, Except.ok.injEq] at h
          have hkeeps : Keeps (spec.named p name) d₂ :=
            (withCommand_keeps _).trans <| (withPorts_keeps _).trans <| (withResources_keeps _).trans <|
              (withProbes_keeps _).trans <| (withSecurityContext_keeps p hsc).trans (withPullPolicy_keeps hpull)
          cases h
          exact ⟨hkeeps.name, hkeeps.image, hkeeps.rest, hkeeps.restartPolicyKey, rfl⟩

/-- None of the policies that a member can get has a count that its name does not take. -/
theorem check_initPolicy (d : Dict β) : checkForRestartPolicy (initPolicy p d) = .ok (initPolicy p d) := by
  unfold initPolicy
  split
  · rfl
  · split
    · rfl
    · cases hpolicy : p.policy <;> simp [checkForRestartPolicy, Post.restartPolicy, hpolicy]

theorem check_restartPolicy : checkForRestartPolicy p.restartPolicy = .ok p.restartPolicy := by
  cases hpolicy : p.policy <;> simp [checkForRestartPolicy, Post.restartPolicy, hpolicy]

/-- What the turn of a spec makes, when its dict is told to be of the kind. -/
def madeAs (p : Post) (kind : Kind) (spec : Dict β) : Made β :=
  match kind with
  | .capsuleInitContainer => madeInit p spec
  | .capsuleContainer => madeMain p spec

/-- A turn that does not raise. -/
structure Turned [DecidableEq β] (p : Post) (st : Loop β) (spec : Dict β) (st' : Loop β) : Prop where
  turn : st'.turn = st.turn + 1
  made : ∃ (m : Member β) (d values : Dict β), st'.members = st.members ++ [m] ∧
    st'.inits = st.inits.set st.turn values ∧
    m.name = nameOf p (p.draws st.turn) ∧ m.uuid = (p.uuids st.turn).text ∧
    (∀ m' ∈ st.members, m'.uuid ≠ m.uuid) ∧
    d.name = some m.name ∧ values.name = some m.name ∧
    m.made = madeAs p (if d ∈ st.inits.set st.turn d then .capsuleInitContainer else .capsuleContainer) spec

theorem create_ok {members members' : List (Member β)} {m : Member β} (h : create p members m = .ok members') :
    members' = members ++ [m] ∧ ∀ m' ∈ members, m'.uuid ≠ m.uuid := by
  simp only [create] at h
  split at h
  · cases h
  · next hfree =>
    cases h
    refine ⟨rfl, fun m' hm' heq => hfree ?_⟩
    have hrow : (p.others ++ members.map Member.row).any (·.uuid = m.uuid) = true :=
      List.any_eq_true.mpr ⟨m'.row, by simp [List.mem_map_of_mem hm'], decide_eq_true heq⟩
    simp [hrow]

theorem step_turned [DecidableEq β] {st st' : Loop β} {spec : Dict β} (h : step p st spec = .ok st') :
    Turned p st spec st' := by
  unfold step at h
  cases hd : prepare p spec (nameOf p (p.draws st.turn)) with
  | error e => simp [hd, bind, Except.bind] at h
  | ok d =>
      obtain ⟨hname, himage, hrest, hkey, hpolicy⟩ := prepare_ok hd
      have hinit : initPolicy p d = initPolicy p spec := by simp [initPolicy, hkey]
      by_cases hmem : d ∈ st.inits.set st.turn d
      · simp only [hd, bind, Except.bind, classify, if_pos hmem, check_initPolicy] at h
        split at h
        · cases h
        · next members hcreate =>
          obtain ⟨hmembers, hfree⟩ := create_ok hcreate
          cases h
          refine ⟨rfl, _, d, _, hmembers, rfl, rfl, rfl, hfree, hname, hname, ?_⟩
          simp [hmem, madeAs, madeInit, Member.made, himage, hrest, hinit]
      · simp only [hd, bind, Except.bind, classify, if_neg hmem, check_restartPolicy] at h
        split at h
        · cases h
        · next members hcreate =>
          obtain ⟨hmembers, hfree⟩ := create_ok hcreate
          cases h
          refine ⟨rfl, _, d, _, hmembers, rfl, rfl, rfl, hfree, hname, hname, ?_⟩
          simp [hmem, madeAs, madeMain, Member.made, himage, hrest]

/-! ## What all turns do -/

/-- `merged_containers_spec`. -/
def Template.specs (t : Template β) : List (Dict β) := t.inits ++ t.mains

/-- Whatever is drawn for a capsule is drawn once. -/
def Distinct (p : Post) (t : Template β) : Prop := ((List.range t.specs.length).map p.draws).Nodup

/-- After `i` turns.  A dict that the loop is done with has the name of its turn. -/
structure Inv (p : Post) (t : Template β) (i : Nat) (st : Loop β) : Prop where
  turn : st.turn = i
  names : st.members.map (·.name) = (List.range i).map fun k => nameOf p (p.draws k)
  uuids : (st.members.map (·.uuid)).Nodup
  hex : ∀ m ∈ st.members, ∃ uuid : UuidText, m.uuid = uuid.text
  length : st.inits.length = t.inits.length
  done : ∀ k < i, ∀ d, st.inits[k]? = some d → d.name = some (nameOf p (p.draws k))
  made : Distinct p t → st.members.map Member.made = (t.made p).take i

section

variable {t : Template β} {st st' : Loop β} {spec d : Dict β} {i : Nat}

theorem made_getElem? (hspec : t.specs[i]? = some spec) : (t.made p)[i]? =
    some (madeAs p (if i < t.inits.length then .capsuleInitContainer else .capsuleContainer) spec) := by
  unfold Template.specs at hspec
  by_cases hlt : i < t.inits.length
  · rw [List.getElem?_append_left hlt] at hspec
    rw [Template.made, List.getElem?_append_left (by simpa using hlt), List.getElem?_map, hspec]
    simp [hlt, madeAs]
  · rw [List.getElem?_append_right (Nat.le_of_not_lt hlt)] at hspec
    rw [Template.made, List.getElem?_append_right (by simpa using hlt), List.length_map, List.getElem?_map, hspec]
    simp [hlt, madeAs]

/-- What was drawn for one turn was not drawn for another. -/
theorem Distinct.ne {k : Nat} (h : Distinct p t) (hk : k < i) (hi : i < t.specs.length) :
    p.draws k ≠ p.draws i := by
  intro heq
  have hinj := List.inj_on_of_nodup_map h (List.mem_range.mpr (hk.trans hi)) (List.mem_range.mpr hi) heq
  omega

/-- With different names, a dict is found among the init containers' in their turns only. -/
theorem Inv.mem_inits_iff [DecidableEq β] (h : Inv p t i st) (hdistinct : Distinct p t) (hi : i < t.specs.length)
    (hname : d.name = some (nameOf p (p.draws i))) : d ∈ st.inits.set i d ↔ i < t.inits.length := by
  rw [← h.length]
  constructor
  · intro hmem
    by_contra hle
    rw [List.set_eq_of_length_le (Nat.le_of_not_lt hle)] at hmem
    obtain ⟨k, hk⟩ := List.mem_iff_getElem?.mp hmem
    have hlt : k < i := by
      have := (List.getElem?_eq_some_iff.mp hk).1
      omega
    have hsame := h.done k hlt d hk
    rw [hname, Option.some_inj] at hsame
    exact hdistinct.ne hlt hi (nameOf_injective p hsame.symm)
  · intro hlt
    exact List.mem_set hlt d

theorem Inv.step [DecidableEq β] (h : Inv p t i st) (hspec : t.specs[i]? = some spec)
    (hstep : step p st spec = .ok st') : Inv p t (i + 1) st' := by
  obtain ⟨hturn, m, d, values, hmembers, hinits, hname, huuid, hfree, hd, hvalues, hmade⟩ := step_turned hstep
  rw [h.turn] at hturn hinits hname huuid hmade
  have hi : i < t.specs.length := (List.getElem?_eq_some_iff.mp hspec).1
  constructor
  case turn => exact hturn
  case names => simp [hmembers, h.names, List.range_succ, hname]
  case uuids =>
    rw [hmembers, List.map_append, List.nodup_append]
    refine ⟨h.uuids, by simp, ?_⟩
    simpa using hfree
  case hex =>
    intro m' hm'
    rw [hmembers, List.mem_append, List.mem_singleton] at hm'
    rcases hm' with hm' | rfl
    · exact h.hex m' hm'
    · exact ⟨_, huuid⟩
  case length => rw [hinits, List.length_set, h.length]
  case done =>
    intro k hk d' hd'
    rw [hinits] at hd'
    rcases Nat.lt_succ_iff_lt_or_eq.mp hk with hk | rfl
    · rw [List.getElem?_set_ne (by omega)] at hd'
      exact h.done k hk d' hd'
    · obtain ⟨hlt, heq⟩ := List.getElem?_eq_some_iff.mp hd'
      rw [List.getElem_set_self] at heq
      rw [← heq, hvalues, hname]
  case made =>
    intro hdistinct
    rw [hname] at hd
    simp only [h.mem_inits_iff hdistinct hi hd] at hmade
    rw [List.take_add_one, made_getElem? hspec, hmembers, List.map_append, h.made hdistinct]
    simp [hmade]

theorem Inv.init (p : Post) (t : Template β) : Inv p t 0 { inits := t.inits } where
  turn := rfl
  names := rfl
  uuids := List.nodup_nil
  hex := by simp
  length := rfl
  done := by simp
  made := by simp

theorem Inv.run [DecidableEq β] (specs : List (Dict β)) : ∀ (i : Nat) (st : Loop β), t.specs.drop i = specs →
    i + specs.length = t.specs.length → Inv p t i st → specs.foldlM (CapsuleMembers.step p) st = .ok st' →
      Inv p t t.specs.length st' := by
  induction specs with
  | nil =>
      intro i st _ hlength h hrun
      cases hrun
      rwa [← hlength]
  | cons spec specs ih =>
      intro i st hdrop hlength h hrun
      have hspec : t.specs[i]? = some spec := by
        have := congrArg (·[0]?) hdrop
        simpa using this
      have hrest : t.specs.drop (i + 1) = specs := by
        rw [← List.tail_drop, hdrop, List.tail_cons]
      rw [List.foldlM_cons] at hrun
      cases hstep : CapsuleMembers.step p st spec with
      | error e => simp [hstep, bind, Except.bind] at hrun
      | ok st₁ =>
          rw [hstep] at hrun
          exact ih (i + 1) st₁ hrest (by rw [← hlength, List.length_cons]; omega) (h.step hspec hstep) hrun

/-- The loop is over. -/
theorem inv_of_addMembers [DecidableEq β] {members : List (Member β)} (h : addMembers p t = .ok members) :
    ∃ st : Loop β, Inv p t t.specs.length st ∧ st.members = members := by
  unfold addMembers at h
  cases hrun : (t.inits ++ t.mains).foldlM (CapsuleMembers.step p) { inits := t.inits } with
  | error e => simp [hrun, Functor.map, Except.map] at h
  | ok st =>
      simp only [hrun, Functor.map, Except.map, Except.ok.injEq] at h
      exact ⟨st, Inv.run t.specs 0 _ List.drop_zero (Nat.zero_add _) (Inv.init p t) hrun, h⟩

end

/-! ## Finding a member -/

theorem find?_eq_of_unique {α : Type} {l : List α} {f : α → Bool} {a : α} (ha : a ∈ l) (hf : f a)
    (hunique : ∀ b ∈ l, f b → b = a) : l.find? f = some a := by
  cases hfind : l.find? f with
  | none => exact absurd hf (List.find?_eq_none.mp hfind a ha)
  | some b => rw [hunique b (List.mem_of_find?_eq_some hfind) (List.find?_some hfind)]

theorem mem_containers {members : List (Member β)} {m : Member β} :
    m ∈ members.filter (·.kind = .capsuleContainer) ++ members.filter (·.kind = .capsuleInitContainer) ↔
      m ∈ members := by
  cases hkind : m.kind <;> simp [hkind]

/-- A member is found by an ident that is its own name or uuid, and neither of another member. -/
theorem findContainer_eq {members : List (Member β)} {m : Member β} {ident : String} (hm : m ∈ members)
    (hident : ident = m.name ∨ ident = m.uuid)
    (hunique : ∀ m' ∈ members, ident = m'.name ∨ ident = m'.uuid → m' = m) :
    findContainer members (some ident) = .ok m := by
  have hmem := mem_containers.mpr hm
  have hfind := @find?_eq_of_unique _ _ (fun m : Member β => decide (ident = m.name) || decide (ident = m.uuid)) _
    hmem (by simpa using hident) fun m' hm' h => hunique m' (mem_containers.mp hm') (by simpa using h)
  unfold findContainer
  generalize members.filter (·.kind = .capsuleContainer) ++ members.filter (·.kind = .capsuleInitContainer) =
    containers at hmem hfind
  cases containers with
  | nil => cases hmem
  | cons a containers => cases containers <;> simp [hfind]

/-- The members of a capsule are what its template says if and only if no two of them were given the same
name. -/
theorem members_follow_iff [DecidableEq β] (p : Post) (t : Template β) (members : List (Member β))
    (h : addMembers p t = .ok members) : Follows p t members ↔ Distinct p t := by
  obtain ⟨st, hinv, rfl⟩ := inv_of_addMembers h
  have hnames : (st.members.map (·.name)).Nodup ↔ Distinct p t := by
    rw [hinv.names, Distinct, ← List.nodup_map_iff (nameOf_injective p), List.map_map]
    rfl
  constructor
  · exact fun hfollows => hnames.mp hfollows.names
  · intro hdistinct
    have hnodup := hnames.mpr hdistinct
    have hnot : ∀ m ∈ st.members, ∀ m' ∈ st.members, m.name ≠ m'.uuid := by
      intro m hm m' hm' heq
      obtain ⟨uuid, huuid⟩ := hinv.hex m' hm'
      have hname : m.name ∈ st.members.map (·.name) := List.mem_map_of_mem hm
      rw [hinv.names] at hname
      obtain ⟨k, -, hk⟩ := List.mem_map.mp hname
      exact nameOf_ne_uuid p (p.draws k) uuid (by rw [hk, heq, huuid])
    constructor
    case made =>
      rw [hinv.made hdistinct, List.take_of_length_le]
      simp [Template.made, Template.specs]
    case names => exact hnodup
    case found =>
      intro m hm
      constructor
      · refine findContainer_eq hm (.inl rfl) fun m' hm' h => ?_
        rcases h with h | h
        · exact List.inj_on_of_nodup_map hnodup hm' hm h.symm
        · exact absurd h (hnot m hm m' hm')
      · refine findContainer_eq hm (.inr rfl) fun m' hm' h => ?_
        rcases h with h | h
        · exact absurd h.symm (hnot m' hm' m hm)
        · exact List.inj_on_of_nodup_map hinv.uuids hm' hm h.symm

/-- A capsule without a name of its own, the number in the name of whose `k`-th member is one more than
`numbers k`. -/
def capsule (numbers : Nat → Fin 24) : Post where
  capsuleId := 1
  capsuleUuid := "c"
  capsuleName := none
  policy := .always
  projectId := some "p"
  userId := some "u"
  draws := fun k =>
    { letter := ⟨0, by decide⟩
      number := numbers k }
  uuids := fun k =>
    { text := String.ofList (List.replicate (k + 1) 'a')
      hex := by simp }

/-- The same image, once in an init container and once in the container itself. -/
def twice : Template Unit where
  inits := [{ image := "busybox", rest := () }]
  mains := [{ image := "busybox", rest := () }]

theorem exists_of_isOk {ε α : Type} {x : Except ε α} (h : x.isOk = true) : ∃ a, x = .ok a := by
  cases x with
  | error e => cases h
  | ok a => exact ⟨a, rfl⟩

theorem members_follow_twice : ∃ members, addMembers (capsule (Fin.ofNat 24)) twice = .ok members ∧
    Follows (capsule (Fin.ofNat 24)) twice members := by
  obtain ⟨members, hmembers⟩ :=
    exists_of_isOk (show (addMembers (capsule (Fin.ofNat 24)) twice).isOk = true by decide +kernel)
  refine ⟨members, hmembers, (members_follow_iff _ _ members hmembers).mpr ?_⟩
  show ((List.range twice.specs.length).map (capsule (Fin.ofNat 24)).draws).Nodup
  decide +kernel

/-! ## One name for two -/

/-- A sidecar and a container alike; where the capsule is always restarted, so are both. -/
def sidecarToo : Template Unit where
  inits := [{ image := "busybox", rest := (), restartPolicyKey := some "Always" }]
  mains := [{ image := "busybox", rest := () }]

/-- What was drawn for the sidecar is drawn for the container, and the container is taken for an init
container. -/
theorem not_members_follow : ¬ ∀ (p : Post) (t : Template Unit) (members : List (Member Unit)),
    addMembers p t = .ok members → Follows p t members := by
  intro h
  have hkinds : (addMembers (capsule fun _ => 0) sidecarToo).toOption.map (·.map (·.kind)) =
      some [.capsuleInitContainer, .capsuleInitContainer] := by decide +kernel
  obtain ⟨members, hmembers⟩ :=
    exists_of_isOk (show (addMembers (capsule fun _ => 0) sidecarToo).isOk = true by decide +kernel)
  have hmade := congrArg (List.map Made.kind) (h _ _ members hmembers).made
  rw [hmembers] at hkinds
  simp only [Except.toOption, Option.map_some, Option.some_inj] at hkinds
  rw [List.map_map, show Made.kind ∘ Member.made (β := Unit) = (·.kind) from rfl, hkinds] at hmade
  exact absurd hmade (by decide +kernel)

end CapsuleMembers

end Zun
