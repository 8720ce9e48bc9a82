import Zun.Cni.Registry

/-!
# A VIF is active when its own port is

`poll_vif_status` of `zun/cni/daemon/service.py` goes from the VIFs that are not active to their
ports, and back from the ports that are.  The way back keeps the name of the interface and not the
container, so a port that has become active marks the interface of its name in every container.  An
ADD waits for the VIFs of its own entry, and believes what it finds there.
-/

namespace Zun

open Effect

namespace Cni

/-- The shared registry. -/
abbrev Registry := AList fun _ : Uuid => Entry

/-- What Neutron lists of a port. -/
structure Port where
  id : Nat
  status : String
deriving DecidableEq

/-- `is_port_active`. -/
def isPortActive (port : Port) : Bool := port.status = "ACTIVE"

def activeIds (ports : List Port) : List Nat := (ports.filter isPortActive).map (·.id)

/-- `registry.copy()`. -/
def copyOf (registry : Registry) : List (Uuid × Entry) := registry.entries.map fun x => (x.1, x.2)

def Entry.has (e : Entry) (ifname : String) : Bool := e.vifs.any fun v => v.1 = ifname

/-- `_update_vif_status`.  It raises when the entry does not have the interface. -/
def markVif (registry : Registry) (x : Uuid × String) : Except String Registry :=
  match registry.lookup x.1 with
  | none => .ok registry
  | some e =>
      if e.has x.2 then .ok (registry.insert x.1 (e.activate x.2))
      else .error s!"KeyError: {x.2}"

/-- `poll_vif_status`, while nobody else writes to the registry. -/
def pollVifStatus (registry : Registry) (ports : List Port) : Except String Registry :=
  (activated (copyOf registry) (activeIds ports)).foldlM markVif registry

/-! ## What a pass marks -/

/-- Some interfaces of an entry are marked. -/
def Entry.settle (e : Entry) (due : String × Vif → Bool) : Entry :=
  { e with vifs := e.vifs.map fun v => if due v then (v.1, { v.2 with active := true }) else v }

/-- The VIFs that are not active, by port. -/
def inactiveVifs (copy : List (Uuid × Entry)) : List (Nat × String) :=
  copy.flatMap fun x => (x.2.vifs.filter fun v => v.2.active = false).map fun v => (v.2.id, v.1)

/-- The interface that a port is taken back to: the one that was last in the way. -/
def portName (copy : List (Uuid × Entry)) (port : Nat) : Option String :=
  ((inactiveVifs copy).reverse.find? (·.1 = port)).map (·.2)

/-- The interfaces of this name are marked. -/
def Due (registry : Registry) (active : List Nat) (ifname : String) : Prop :=
  ∃ p ∈ active, portName (copyOf registry) p = some ifname

section

variable {registry : Registry} {active : List Nat} {ifname : String} {u : Uuid} {e : Entry}

theorem mem_activated {copy : List (Uuid × Entry)} :
    (u, ifname) ∈ activated copy active ↔
      u ∈ copy.map (·.1) ∧ ∃ p ∈ active, portName copy p = some ifname := by
  have hunfold : activated copy active = copy.flatMap fun x => active.filterMap fun p =>
      (portName copy p).map fun ifname => (x.1, ifname) := rfl
  rw [hunfold]
  simp only [List.mem_flatMap, List.mem_filterMap, Option.map_eq_some_iff, List.mem_map]
  constructor
  · rintro ⟨x, hx, p, hp, name, hname, heq⟩
    cases heq
    exact ⟨⟨x, hx, rfl⟩, p, hp, hname⟩
  · rintro ⟨⟨x, hx, rfl⟩, p, hp, hname⟩
    exact ⟨x, hx, p, hp, ifname, hname, rfl⟩

theorem mem_copyOf : u ∈ (copyOf registry).map (·.1) ↔ u ∈ registry := by
  simp [copyOf, AList.mem_keys, AList.keys, List.keys, Function.comp_def]

theorem due_of_mem : (u, ifname) ∈ activated (copyOf registry) active ↔
    u ∈ registry ∧ Due registry active ifname := by
  rw [mem_activated, mem_copyOf]
  rfl

theorem activate_eq_settle : e.activate ifname = e.settle fun v => v.1 = ifname := by
  simp [Entry.activate, Entry.settle]

theorem settle_settle (due due' : String × Vif → Bool) (h : ∀ v active, due' (v.1, { v.2 with active }) = due' v) :
    (e.settle due).settle due' = e.settle fun v => due v || due' v := by
  simp only [Entry.settle, List.map_map]
  congr 1
  refine List.map_congr_left fun v _ => ?_
  cases hv : due v <;> cases hv' : due' v <;> simp [hv, hv', h]

@[simp] theorem has_settle (due : String × Vif → Bool) (name : String) :
    (e.settle due).has name = e.has name := by
  rw [Entry.has, Entry.has, Entry.settle, List.any_map]
  congr 1
  funext v
  cases hv : due v <;> simp [hv]

end

/-! ## A pass -/

/-- Every interface is there when its turn comes. -/
def AllThere (registry : Registry) (todo : List (Uuid × String)) : Prop :=
  ∀ x ∈ todo, ∀ e, registry.lookup x.1 = some e → e.has x.2 = true

/-- One mark. -/
theorem markVif_spec {registry : Registry} {x : Uuid × String}
    (h : ∀ e, registry.lookup x.1 = some e → e.has x.2 = true) :
    ∃ registry', markVif registry x = .ok registry' ∧
      ∀ u, registry'.lookup u =
        (registry.lookup u).map fun e => e.settle fun v => (u, v.1) = x := by
  obtain ⟨u, name⟩ := x
  unfold markVif
  cases hlookup : registry.lookup u with
  | none =>
      refine ⟨registry, rfl, fun w => ?_⟩
      by_cases hw : w = u
      · rw [hw, hlookup]
        rfl
      · cases registry.lookup w with
        | none => rfl
        | some e => simp [Entry.settle, hw]
  | some e =>
      simp only [if_pos (h e hlookup)]
      refine ⟨_, rfl, fun w => ?_⟩
      by_cases hw : w = u
      · subst hw
        rw [AList.lookup_insert, hlookup, Option.map_some, activate_eq_settle]
        simp
      · rw [AList.lookup_insert_ne hw]
        cases registry.lookup w with
        | none => rfl
        | some e => simp [Entry.settle, hw]

/-- What marking some interfaces one after the other does. -/
theorem foldlM_markVif (todo : List (Uuid × String)) (registry : Registry)
    (h : AllThere registry todo) :
    ∃ registry', todo.foldlM markVif registry = .ok registry' ∧
      ∀ u, registry'.lookup u =
        (registry.lookup u).map fun e => e.settle fun v => (u, v.1) ∈ todo := by
  induction todo generalizing registry with
  | nil =>
      refine ⟨registry, rfl, fun u => ?_⟩
      cases registry.lookup u with
      | none => rfl
      | some e => simp [Entry.settle]
  | cons x todo ih =>
      obtain ⟨next, hnext, hlookup⟩ := markVif_spec (h x (by simp))
      have hthere : AllThere next todo := by
        intro y hy e he
        rw [hlookup, Option.map_eq_some_iff] at he
        obtain ⟨e', he', rfl⟩ := he
        rw [has_settle]
        exact h y (by simp [hy]) e' he'
      obtain ⟨registry', hregistry', hlookup'⟩ := ih next hthere
      refine ⟨registry', by rw [List.foldlM_cons, hnext]; exact hregistry', fun u => ?_⟩
      rw [hlookup', hlookup, Option.map_map]
      congr 1
      funext e
      rw [Function.comp_apply, settle_settle _ _ fun v active => rfl]
      simp

/-- A pass that ends has found every interface. -/
theorem allThere_of_foldlM {todo : List (Uuid × String)} {registry registry' : Registry}
    (h : todo.foldlM markVif registry = .ok registry') : AllThere registry todo := by
  induction todo generalizing registry with
  | nil => exact fun x hx => absurd hx List.not_mem_nil
  | cons x todo ih =>
      rw [List.foldlM_cons] at h
      have hx : ∀ e, registry.lookup x.1 = some e → e.has x.2 = true := by
        intro e he
        by_contra hhas
        have herror : markVif registry x = .error s!"KeyError: {x.2}" := by
          simp only [markVif, he, if_neg hhas]
        rw [herror] at h
        cases h
      obtain ⟨next, hnext, hlookup⟩ := markVif_spec hx
      rw [hnext] at h
      have hthere := ih h
      intro y hy e he
      rcases List.mem_cons.mp hy with rfl | hy
      · exact hx e he
      · have := hthere y hy (e.settle fun v => (y.1, v.1) = x) (by rw [hlookup, he]; rfl)
        rwa [has_settle] at this

/-! ## When a pass is right -/

/-- What a pass is to make of an entry: the VIFs that are not active and whose own port is. -/
def Entry.own (e : Entry) (active : List Nat) : Entry :=
  e.settle fun v => !v.2.active && v.2.id ∈ active

/-- The pass ends, and marks the VIFs of the ports that are active and no others. -/
def Exact (registry : Registry) (ports : List Port) : Prop :=
  ∃ registry', pollVifStatus registry ports = .ok registry' ∧
    ∀ u, registry'.lookup u = (registry.lookup u).map fun e => e.own (activeIds ports)

/-- A name that a port is taken back to is an interface of every container, whose own port is active
there too; and a VIF whose own port is active has such a name. -/
def OwnNames (registry : Registry) (active : List Nat) : Prop :=
  ∀ u e, registry.lookup u = some e →
    (∀ ifname, Due registry active ifname → e.has ifname = true) ∧
    (∀ v ∈ e.vifs, Due registry active v.1 → v.2.active = true ∨ v.2.id ∈ active) ∧
    ∀ v ∈ e.vifs, v.2.active = false → v.2.id ∈ active → Due registry active v.1

theorem settle_congr {e : Entry} {due due' : String × Vif → Bool} :
    e.settle due = e.settle due' ↔
      ∀ v ∈ e.vifs, due v = due' v ∨ v.2.active = true := by
  have hvifs : e.settle due = e.settle due' ↔
      ∀ v ∈ e.vifs, (if due v then (v.1, { v.2 with active := true }) else v) =
        if due' v then (v.1, { v.2 with active := true }) else v := by
    simp only [Entry.settle, Entry.mk.injEq, true_and, List.map_inj_left]
  rw [hvifs]
  refine forall₂_congr fun v _ => ?_
  obtain ⟨name, id, active⟩ := v
  cases due (name, ⟨id, active⟩) <;> cases due' (name, ⟨id, active⟩) <;> cases active <;> simp

theorem allThere_iff {registry : Registry} {active : List Nat} :
    AllThere registry (activated (copyOf registry) active) ↔
      ∀ u e, registry.lookup u = some e → ∀ ifname, Due registry active ifname → e.has ifname = true := by
  constructor
  · intro h u e he ifname hdue
    exact h (u, ifname) (due_of_mem.mpr ⟨AList.lookup_isSome.mp (by simp [he]), hdue⟩) e he
  · intro h x hx e he
    exact h x.1 e he x.2 (due_of_mem.mp hx).2

theorem exact_iff (registry : Registry) (ports : List Port) :
    Exact registry ports ↔ OwnNames registry (activeIds ports) := by
  have hmark (u : Uuid) (e : Entry) (he : registry.lookup u = some e) :
      (e.settle fun v => (u, v.1) ∈ activated (copyOf registry) (activeIds ports)) =
          e.own (activeIds ports) ↔
        (∀ v ∈ e.vifs, Due registry (activeIds ports) v.1 →
          v.2.active = true ∨ v.2.id ∈ activeIds ports) ∧
        ∀ v ∈ e.vifs, v.2.active = false → v.2.id ∈ activeIds ports →
          Due registry (activeIds ports) v.1 := by
    have hu : u ∈ registry := AList.lookup_isSome.mp (by simp [he])
    rw [Entry.own, settle_congr, ← forall₂_and]
    refine forall₂_congr fun v _ => ?_
    rw [Bool.eq_iff_iff]
    simp only [decide_eq_true_iff, due_of_mem, hu, true_and, Bool.and_eq_true, Bool.not_eq_true']
    cases v.2.active <;> simp
    tauto
  constructor
  · rintro ⟨registry', hpoll, hlookup⟩ u e he
    have hthere := allThere_of_foldlM hpoll
    obtain ⟨registry'', hpoll', hlookup'⟩ := foldlM_markVif _ registry hthere
    rw [pollVifStatus, hpoll'] at hpoll
    injection hpoll with hpoll
    subst hpoll
    have hsame := hlookup u
    rw [hlookup', he, Option.map_some, Option.map_some] at hsame
    injection hsame with hsame
    exact ⟨allThere_iff.mp hthere u e he, (hmark u e he).mp hsame⟩
  · intro h
    have hthere : AllThere registry (activated (copyOf registry) (activeIds ports)) :=
      allThere_iff.mpr fun u e he => (h u e he).1
    obtain ⟨registry', hpoll, hlookup⟩ := foldlM_markVif _ registry hthere
    refine ⟨registry', hpoll, fun u => ?_⟩
    rw [hlookup]
    cases he : registry.lookup u with
    | none => rfl
    | some e => rw [Option.map_some, Option.map_some, (hmark u e he).mpr (h u e he).2]

/-! ## What an ADD waits for -/

/-- The node, and the ports that were seen active: by a record when its VIFs were written, or by a
pass. -/
structure Observed where
  state : State
  seen : List Nat := []

/-- The ports that a step sees. -/
def sees (s : State) : Event → List Nat
  | .work i _ =>
      match s.workers i with
      | some (.add _ (.connecting [] vifs)) => (vifs.filter fun v => v.2.active).map (·.2.id)
      | _ => []
  | .watch true active =>
      match s.watcher with
      | .polling _ => active
      | _ => []
  | _ => []

def observe (host : String) (e : Event) (o : Observed) : Observed :=
  { state := step host e o.state, seen := sees o.state e ++ o.seen }

/-- The registry is empty when the daemon starts. -/
def Unstarted (o : Observed) : Prop := o.state.registry = ∅

/-- What a pass marks is active already, or its own port was seen active. -/
def MarksOwn (e : Event) (o : Observed) : Prop :=
  ∀ ok active u ifname todo, e = .watch ok active →
    o.state.watcher = .updating ((u, ifname) :: todo) →
      ∀ entry, o.state.registry.lookup u = some entry → ∀ v ∈ entry.vifs, v.1 = ifname →
        v.2.active = true ∨ v.2.id ∈ o.seen

/-- The VIFs of an entry that are active are of ports that were seen active. -/
def Entry.Trusted (seen : List Nat) (e : Entry) : Prop := ∀ v ∈ e.vifs, v.2.active = true → v.2.id ∈ seen

/-- All entries are so. -/
def Trusted (seen : List Nat) (registry : Registry) : Prop :=
  ∀ u e, registry.lookup u = some e → e.Trusted seen

section

variable {seen : List Nat} {registry : Registry} {u : Uuid} {e : Entry}

theorem Trusted.mono {seen' : List Nat} (h : Trusted seen registry) (hsub : ∀ p ∈ seen, p ∈ seen') :
    Trusted seen' registry := fun u e he v hv hactive => hsub _ (h u e he v hv hactive)

theorem Trusted.insert (h : Trusted seen registry) (he : e.Trusted seen) :
    Trusted seen (registry.insert u e) := by
  intro w e' he'
  by_cases hw : w = u
  · subst hw
    rw [AList.lookup_insert] at he'
    injection he' with he'
    exact he' ▸ he
  · rw [AList.lookup_insert_ne hw] at he'
    exact h w e' he'

theorem Trusted.erase (h : Trusted seen registry) : Trusted seen (registry.erase u) := by
  intro w e he
  by_cases hw : w = u
  · subst hw
    rw [AList.lookup_erase] at he
    cases he
  · rw [AList.lookup_erase_ne hw] at he
    exact h w e he

end

section

variable {s : State} {seen : List Nat}

theorem trusted_unplugged (h : Trusted seen s.registry) (u : Uuid) :
    Trusted seen (unplugged s u).registry := by
  unfold unplugged
  split
  · exact h
  next e he =>
    split
    · exact h.erase
    · exact h.insert (h u e he)

theorem trusted_onContainerDeleted (h : Trusted seen s.registry) (u : Uuid) :
    Trusted seen (onContainerDeleted s u).registry := by
  unfold onContainerDeleted
  split
  · exact h
  next e he =>
    split
    · exact h.erase
    · exact h.insert (h u e he)

theorem trusted_updateVifStatus {u : Uuid} {ifname : String} (h : Trusted seen s.registry)
    (hown : ∀ e, s.registry.lookup u = some e → ∀ v ∈ e.vifs, v.1 = ifname →
      v.2.active = true ∨ v.2.id ∈ seen) : Trusted seen (updateVifStatus s u ifname).registry := by
  unfold updateVifStatus
  split
  · exact h
  next e he =>
    refine h.insert fun v hv hactive => ?_
    obtain ⟨w, hw, rfl⟩ := List.mem_map.mp hv
    by_cases hname : w.1 = ifname
    · rw [if_pos hname]
      rcases hown e he w hw hname with hold | hseen
      · exact h u e he w hw hold
      · exact hseen
    · rw [if_neg hname] at hactive ⊢
      exact h u e he w hw hactive

/-- A request of the runtime. -/
theorem trusted_stepWorker (i : Nat) (ok : Bool) (h : Trusted seen s.registry) :
    Trusted (sees s (.work i ok) ++ seen) (stepWorker s i ok).registry := by
  have hmono : Trusted (sees s (.work i ok) ++ seen) s.registry := h.mono fun p hp => by simp [hp]
  unfold stepWorker
  cases hw : s.workers i with
  | none => exact hmono
  | some w =>
      cases w with
      | del r phase =>
          cases phase with
          | checking => exact hmono
          | finding => exact hmono
          | disconnecting rest =>
              cases rest with
              | nil => exact trusted_unplugged hmono r.uuid
              | cons v rest => exact hmono
      | add r phase =>
          cases phase with
          | finding =>
              simp only [stepAdd]
              split <;> exact hmono
          | waiting =>
              simp only [stepAdd]
              split
              · split <;> exact hmono
              · exact hmono
          | connecting rest vifs =>
              cases rest with
              | cons v rest => exact hmono
              | nil =>
                  refine hmono.insert fun v hv hactive => ?_
                  simp only [sees, hw, List.mem_append, List.mem_map, List.mem_filter]
                  exact .inl ⟨v, ⟨hv, hactive⟩, rfl⟩

theorem trusted_step (host : String) (e : Event) (o : Observed) (h : Trusted o.seen o.state.registry)
    (hown : MarksOwn e o) : Trusted (observe host e o).seen (observe host e o).state.registry := by
  have hmono : Trusted (sees o.state e ++ o.seen) o.state.registry := h.mono fun p hp => by simp [hp]
  cases e with
  | work i ok => exact trusted_stepWorker i ok h
  | watch ok active =>
      simp only [observe, step]
      unfold stepWatcher
      split
      case h_5 u gone hwatcher => exact trusted_onContainerDeleted hmono u
      case h_8 u ifname todo hwatcher =>
        refine trusted_updateVifStatus hmono fun e he v hv hname => ?_
        refine (hown ok active u ifname todo rfl hwatcher e he v hv hname).imp_right fun hseen => ?_
        simp [hseen]
      all_goals exact hmono
  | _ => exact hmono

end

/-- The states of the runs in which no pass marks a VIF whose own port was not seen active. -/
def Honored (host : String) : Observed → Prop :=
  Reached Unstarted (observe host) fun e o => Possible e o.state ∧ MarksOwn e o

theorem Honored.trusted {host : String} {o : Observed} (h : Honored host o) :
    Trusted o.seen o.state.registry := by
  refine Reached.invariant (I := fun o => Trusted o.seen o.state.registry) h
    (fun o ho u e he => ?_) fun e o hok ho => trusted_step host e o ho hok.2
  rw [show o.state.registry = ∅ from ho, AList.lookup_empty] at he
  cases he

/-- A pass is right exactly when the names that it goes by are those of its own ports, and where
every mark is right, an ADD that is about to answer has seen the port of each of its VIFs active. -/
theorem poll_iff (registry : Registry) (ports : List Port) (host : String) :
    (Exact registry ports ↔ OwnNames registry (activeIds ports)) ∧
    ∀ o, Honored host o → ∀ i r e, o.state.workers i = some (.add r .waiting) →
      o.state.registry.lookup r.uuid = some e → e.vifs.all (·.2.active) = true →
        ∀ v ∈ e.vifs, v.2.id ∈ o.seen := by
  refine ⟨exact_iff registry ports, fun o ho i r e _ he hactive v hv => ?_⟩
  exact ho.trusted r.uuid e he v hv (List.all_eq_true.mp hactive v hv)

/-- Two containers with an interface of the same name. -/
def twoContainers : Registry :=
  (AList.singleton 1 { containerId := some 1, vifs := [("eth0", { id := 10 })] }).insert 2
    { containerId := some 2, vifs := [("eth0", { id := 20 })] }

/-- The port of the first one has become active. -/
def onePortActive : List Port := [⟨10, "ACTIVE"⟩, ⟨20, "DOWN"⟩]

theorem not_exact : ¬Exact twoContainers onePortActive := by
  rintro ⟨registry', hpoll, hlookup⟩
  have hmarked : (pollVifStatus twoContainers onePortActive).map (fun r => r.lookup 2) =
      .ok (some { containerId := some 2, vifs := [("eth0", { id := 20, active := true })] }) := by
    decide +kernel
  have howned : (twoContainers.lookup 2).map (fun e => e.own (activeIds onePortActive)) =
      some { containerId := some 2, vifs := [("eth0", { id := 20 })] } := by decide +kernel
  rw [hpoll] at hmarked
  have hboth := hlookup 2
  rw [howned] at hboth
  simp [Except.map, hboth] at hmarked

end Cni

end Zun
