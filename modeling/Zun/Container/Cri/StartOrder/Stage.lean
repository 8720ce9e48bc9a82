import Zun.Container.Cri.Undo
import Zun.Effect.Watched

/-!
# The start order of a capsule

`create_capsule` and `_rebuild_capsule` start the members of a capsule one after the other.  A plain
init container has to succeed and a sidecar has to have started before the next member is come to.

What is asked of a run is asked at every call to `CreateContainer`.  A process can die at any call it
makes, and dies with the world as it is when the call is made.  So what holds whenever a run stops
at a call holds whenever a run makes that call.

A `Stage` is what the run has come to: which members are done, which of them own a container, what
is known of an object or seen of a container, and which plain init container may be live.  `Inv` says
that a world is as the stage has it, and each function below the two has one lemma from stage to stage.
-/

namespace Zun

open Effect Prog

namespace Cri

namespace StartOrder

/-! ## The order -/

/-- The plain init containers of a capsule. -/
def plain (c : Capsule) (s : World) (m : Uuid) : Bool :=
  c.initContainers.contains m && !(s.mem m).val.isSidecar

/-- The init members that come before a member.  A main one comes after them all. -/
def before (c : Capsule) (m : Uuid) : List Uuid := c.initContainers.takeWhile (· ≠ m)

/-- The call makes a container for a member. -/
def createsFor (m : Uuid) : Call → Bool
  | .createContainer _ name _ => name = m
  | _ => false

/-- How often a container was to be made for a member. -/
def attempts (m : Uuid) (s : World) : Nat := s.log.countP fun x => createsFor m x.1

/-- The last call, and made since `s₀`. -/
def Last (s₀ : World) (x : Call × Answer) (s : World) : Prop := ∃ t, s.log = x :: t ∧ s₀.log <:+ t

/-- A member has a container made since `s₀` that was seen stopped.  Its code is on the record, or
could not be read. -/
def Seen (s₀ : World) (m : Uuid) (s : World) : Prop :=
  ∃ k ∈ s.containers, k.name = m ∧ s₀.nextId ≤ k.id ∧ k.state = .exited ∧
    (s.mem m).val.containerId = some k.id ∧ (s.mem m).val.status = .stopped ∧
    ((s.mem m).val.statusDetail = some (.exit k.exitCode) ∨
      (s.mem m).val.statusDetail = none ∧ ∃ e, Made s₀ (.containerStatus k.id) (.raise e) s)

/-- A plain init container was seen stopped, and no failure was read. -/
def Succeeded (s₀ : World) (m : Uuid) (s : World) : Prop :=
  Seen s₀ m s ∧ failureOf (s.mem m).val.statusDetail = none

/-- A sidecar has counted as started since `s₀`: a container of it was started, and its startup
probe, if it has one, has passed. -/
def CountedStarted (s₀ : World) (m : Uuid) (s : World) : Prop :=
  ∃ id row, s₀.nextId ≤ id ∧ row.containerId = some id ∧ Made s₀ (.save m row) .ok s ∧
    Made s₀ (.startContainer id) .ok s ∧
    ((s₀.mem m).val.healthcheck.probes.startup.isSome →
      ∃ row, row.healthcheck.state.startupPassed = true ∧ Made s₀ (.save m row) .ok s)

/-- What an init member has to have come to before the next member is started. -/
def Done (s₀ : World) (m : Uuid) (s : World) : Prop :=
  if (s₀.mem m).val.isSidecar then CountedStarted s₀ m s else Succeeded s₀ m s

/-- A live container of a plain init container, made since `s₀`. -/
def LiveInit (c : Capsule) (s₀ : World) (k : CriContainer) : Prop :=
  s₀.nextId ≤ k.id ∧ plain c s₀ k.name = true ∧ k.state ≠ .exited

/-- At most one plain init container is live. -/
def OneLive (c : Capsule) (s₀ s : World) : Prop :=
  ∀ k ∈ s.containers, ∀ k' ∈ s.containers, LiveInit c s₀ k → LiveInit c s₀ k' → k.id = k'.id

/-- No delete had come by the call that is `n` before the last one. -/
def Wanted (env : Env) (c : Capsule) (s₀ : World) (n : Nat) (s : World) : Prop :=
  c.uuid ∉ s₀.abandoned ∧ ∀ t, s₀.tick ≤ t → t + n < s.tick → c.uuid ∉ env.abandons t

/-- A container may be made for a member. -/
structure Entitled (env : Env) (c : Capsule) (s₀ : World) (n : Nat) (m : Uuid) (s : World) : Prop where
  order : ∀ i ∈ before c m, Done s₀ i s
  alone : plain c s₀ m = true → ∀ k ∈ s.containers, ¬ LiveInit c s₀ k
  /-- No plain init container had a second attempt. -/
  policy : m ∈ c.containers → (s₀.mem c.uuid).val.restarts = false →
    ∀ i, plain c s₀ i = true → attempts i s = attempts i s₀ + 1
  wanted : Wanted env c s₀ n s

/-- Where a run stops at `CreateContainer`, the container may be made. -/
def AtCall (env : Env) (c : Capsule) (s₀ : World) (n : Nat) (s : World) : Prop :=
  ∀ pod m attempt, Last s₀ (.createContainer pod m attempt, .halt) s → Entitled env c s₀ n m s

/-- What is asked of a run wherever it stops or ends. -/
def Orderly (env : Env) (c : Capsule) (s₀ : World) (n : Nat) (s : World) : Prop :=
  OneLive c s₀ s ∧ AtCall env c s₀ n s

/-- The two programs that start the members of a capsule. -/
inductive Building where
  | create (nets : List RequestedNetwork) (vols : RequestedVolumes)
  | rebuild

def Building.run (env : Env) (c : Capsule) : Building → Prog World Exn Unit
  | .create nets vols => createCapsule env c nets vols
  | .rebuild => rebuildCapsule env c

/-- The ids of the containers were given out before, and each once. -/
structure Counted (s : World) : Prop where
  ids : ∀ k ∈ s.containers, k.id < s.nextId
  nodup : (s.containers.map (·.id)).Nodup

/-! ## What time does to a container -/

/-- A container later on. -/
structure Ages (k k' : CriContainer) : Prop where
  id : k'.id = k.id
  name : k'.name = k.name
  dead : k.state = .exited → k' = k

theorem Ages.refl (k : CriContainer) : Ages k k := ⟨rfl, rfl, fun _ => rfl⟩

theorem Ages.live {k k' : CriContainer} (h : Ages k k') (hk : k'.state ≠ .exited) :
    k.state ≠ .exited := fun hover => hk (by rw [h.dead hover, hover])

theorem ages_exit (exits : List (RuntimeId × Int)) (k : CriContainer) :
    Ages k (CriContainer.exit exits k) := by
  unfold CriContainer.exit
  split
  · split
    next hrun => exact ⟨rfl, rfl, fun h => absurd (hrun.symm.trans h) (by decide)⟩
    next => exact Ages.refl k
  · exact Ages.refl k

theorem ages_stopped (k : CriContainer) : Ages k (stopped k) := by
  unfold stopped
  split
  next hrun => exact ⟨rfl, rfl, fun h => absurd (hrun.symm.trans h) (by decide)⟩
  next => exact Ages.refl k

theorem ages_killIn (pod : RuntimeId) (k : CriContainer) : Ages k (killIn pod k) := by
  unfold killIn
  split
  next hrun => exact ⟨rfl, rfl, fun h => absurd (hrun.2.symm.trans h) (by decide)⟩
  next => exact Ages.refl k

/-- The world went on.  Of the containers only those in `gone` may have been removed. -/
structure Onward (gone : RuntimeId → Prop) (s s' : World) : Prop where
  log : s.log <:+ s'.log
  mem : s'.mem = s.mem
  kept : ∀ k ∈ s.containers, ¬ gone k.id → ∃ k' ∈ s'.containers, Ages k k'

/-- The container on a record is there, was made since `s₀` and bears the name of the record. -/
def Owns (s₀ : World) (u : Uuid) (s : World) : Prop :=
  ∃ k ∈ s.containers, (s.mem u).val.containerId = some k.id ∧ k.name = u ∧ s₀.nextId ≤ k.id

/-- The container on a record is not among the given ones. -/
def Spared (gone : RuntimeId → Prop) (u : Uuid) (s : World) : Prop :=
  ∀ id, (s.mem u).val.containerId = some id → ¬ gone id

section Onward

variable {s₀ s s' : World} {u m : Uuid} {gone : RuntimeId → Prop}

theorem Owns.onward (h : Owns s₀ u s) (ho : Onward gone s s') (hu : Spared gone u s) :
    Owns s₀ u s' := by
  obtain ⟨k, hk, hid, hname, hnew⟩ := h
  obtain ⟨k', hk', hage⟩ := ho.kept k hk (hu _ hid)
  refine ⟨k', hk', ?_, hage.name.trans hname, hage.id ▸ hnew⟩
  rw [ho.mem, hid, hage.id]

theorem Seen.onward (h : Seen s₀ m s) (ho : Onward gone s s') (hm : Spared gone m s) :
    Seen s₀ m s' := by
  obtain ⟨k, hk, hname, hnew, hover, hid, hstatus, hdetail⟩ := h
  obtain ⟨k', hk', hage⟩ := ho.kept k hk (hm _ hid)
  have hsame : k' = k := hage.dead hover
  subst hsame
  refine ⟨k', hk', hname, hnew, hover, ?_, ?_, ?_⟩
  · rw [ho.mem, hid]
  · rw [ho.mem, hstatus]
  · rw [ho.mem]
    refine hdetail.imp_right fun hnone => ⟨hnone.1, ?_⟩
    obtain ⟨e, he⟩ := hnone.2
    exact ⟨e, he.later ho.log⟩

theorem Succeeded.onward (h : Succeeded s₀ m s) (ho : Onward gone s s') (hm : Spared gone m s) :
    Succeeded s₀ m s' := ⟨h.1.onward ho hm, by rw [ho.mem]; exact h.2⟩

theorem CountedStarted.later (h : CountedStarted s₀ m s) (hlog : s.log <:+ s'.log) :
    CountedStarted s₀ m s' := by
  obtain ⟨id, row, hnew, hid, hsave, hstart, hprobe⟩ := h
  refine ⟨id, row, hnew, hid, hsave.later hlog, hstart.later hlog, fun hsome => ?_⟩
  obtain ⟨row', hpassed, hmade⟩ := hprobe hsome
  exact ⟨row', hpassed, hmade.later hlog⟩

theorem Done.onward (h : Done s₀ m s) (ho : Onward gone s s')
    (hm : (s₀.mem m).val.isSidecar = false → Spared gone m s) : Done s₀ m s' := by
  unfold Done at h ⊢
  cases hside : (s₀.mem m).val.isSidecar with
  | true =>
      rw [hside, if_pos rfl] at h
      rw [if_pos rfl]
      exact h.later ho.log
  | false =>
      rw [hside, if_neg Bool.false_ne_true] at h
      rw [if_neg Bool.false_ne_true]
      exact h.onward ho (hm hside)

end Onward

/-! ## Stages -/

/-- What a run has come to. -/
structure Stage where
  /-- The init members that are done. -/
  done : List Uuid := []
  /-- The members that own a container. -/
  owned : List Uuid := []
  /-- The members whose container was seen stopped. -/
  seen : List Uuid := []
  /-- The objects that are known. -/
  known : Uuid → Option Obj := fun _ => none
  /-- The plain init container that may be live. -/
  live : Option RuntimeId := none
  /-- Calls that were made, with their answers. -/
  made : List (Call × Answer) := []
  /-- Whose container an id is. -/
  named : List (RuntimeId × Uuid) := []
  /-- The containers that have exited. -/
  dead : List RuntimeId := []
  /-- How often a container was made for each plain init container. -/
  tries : Uuid → Nat := fun _ => 0

/-- What holds of every world of a run from `s₀`. -/
structure Ground (env : Env) (c : Capsule) (s₀ s : World) : Prop extends Counted s where
  log : s₀.log <:+ s.log
  next : s₀.nextId ≤ s.nextId
  policy : ∀ u, (s.mem u).val.restartPolicy = (s₀.mem u).val.restartPolicy
  probes : ∀ u, (s.mem u).val.healthcheck.probes = (s₀.mem u).val.healthcheck.probes
  abandoned : (c.uuid ∈ s₀.abandoned ∨ ∃ t, s₀.tick ≤ t ∧ t < s.tick ∧ c.uuid ∈ env.abandons t) →
    c.uuid ∈ s.abandoned

/-- A world is as a stage has it. -/
structure Inv (env : Env) (c : Capsule) (s₀ : World) (g : Stage) (s : World) : Prop
    extends Ground env c s₀ s where
  done : ∀ m ∈ g.done, Done s₀ m s
  owned : ∀ u ∈ g.owned, Owns s₀ u s
  seen : ∀ m ∈ g.seen, Seen s₀ m s
  known : ∀ u o, g.known u = some o → s.mem u = o
  live : ∀ k ∈ s.containers, LiveInit c s₀ k → g.live = some k.id
  made : ∀ x ∈ g.made, Made s₀ x.1 x.2 s
  named : ∀ x ∈ g.named, x.1 < s.nextId ∧ ∀ k ∈ s.containers, k.id = x.1 → k.name = x.2
  dead : ∀ id ∈ g.dead, id < s.nextId ∧ ∀ k ∈ s.containers, k.id = id → k.state = .exited
  tries : ∀ u, plain c s₀ u = true → attempts u s = attempts u s₀ + g.tries u
section Inv

variable {env : Env} {c : Capsule} {s₀ s s' : World} {g : Stage} {u m : Uuid} {gone : RuntimeId → Prop}

/-! ## What the calls do -/

/-- An effect that makes no container.  Of the containers only those in `gone` are removed. -/
structure Effected (gone : RuntimeId → Prop) (s s' : World) : Prop where
  log : s'.log = s.log
  mem : s'.mem = s.mem
  abandoned : s'.abandoned = s.abandoned
  next : s.nextId ≤ s'.nextId
  ids : (s'.containers.map (·.id)).Sublist (s.containers.map (·.id))
  back : ∀ k' ∈ s'.containers, ∃ k ∈ s.containers, Ages k k'
  kept : ∀ k ∈ s.containers, ¬ gone k.id → ∃ k' ∈ s'.containers, Ages k k'

theorem Effected.onward (h : Effected gone s s') : Onward gone s s' :=
  ⟨by rw [h.log], h.mem, h.kept⟩

theorem effected_map {f : CriContainer → CriContainer} (hf : ∀ k ∈ s.containers, Ages k (f k)) :
    Effected (fun _ => False) s { s with containers := s.containers.map f } where
  log := rfl
  mem := rfl
  abandoned := rfl
  next := Nat.le_refl _
  ids := by
    have hids : (s.containers.map f).map (·.id) = s.containers.map (·.id) := by
      rw [List.map_map]
      exact List.map_congr_left fun k hk => (hf k hk).id
    show ((s.containers.map f).map (·.id)).Sublist _
    rw [hids]
  back := by
    intro k' hk'
    obtain ⟨k, hk, rfl⟩ := List.mem_map.mp hk'
    exact ⟨k, hk, hf k hk⟩
  kept k hk _ := ⟨f k, List.mem_map_of_mem hk, hf k hk⟩

theorem effected_filter (s : World) (p : CriContainer → Bool)
    (hp : ∀ k ∈ s.containers, p k = false → gone k.id) :
    Effected gone s { s with containers := s.containers.filter p } where
  log := rfl
  mem := rfl
  abandoned := rfl
  next := Nat.le_refl _
  ids := List.filter_sublist.map _
  back k hk := ⟨k, List.mem_of_mem_filter hk, Ages.refl k⟩
  kept k hk hgone := by
    refine ⟨k, List.mem_filter.mpr ⟨hk, ?_⟩, Ages.refl k⟩
    cases hpk : p k with
    | true => rfl
    | false => exact absurd (hp k hk hpk) hgone

/-- An effect that leaves the containers alone. -/
theorem effected_elsewhere (hlog : s'.log = s.log) (hmem : s'.mem = s.mem)
    (habandoned : s'.abandoned = s.abandoned) (hnext : s.nextId ≤ s'.nextId)
    (hcontainers : s'.containers = s.containers) : Effected (fun _ => False) s s' where
  log := hlog
  mem := hmem
  abandoned := habandoned
  next := hnext
  ids := by rw [hcontainers]
  back k hk := ⟨k, hcontainers ▸ hk, Ages.refl k⟩
  kept k hk _ := ⟨k, hcontainers ▸ hk, Ages.refl k⟩

theorem Counted.sublist (h : Counted s) (hnext : s.nextId ≤ s'.nextId)
    (hids : (s'.containers.map (·.id)).Sublist (s.containers.map (·.id))) : Counted s' where
  ids k hk := by
    obtain ⟨k', hk', hid⟩ := List.mem_map.mp (hids.subset (List.mem_map_of_mem hk))
    have hlt : k.id < s.nextId := hid ▸ h.ids k' hk'
    exact Nat.lt_of_lt_of_le hlt hnext
  nodup := h.nodup.sublist hids

theorem Ground.effect (h : Ground env c s₀ s) (he : Effected gone s s') : Ground env c s₀ s' where
  toCounted := Counted.sublist h.toCounted he.next he.ids
  log := he.log ▸ h.log
  next := h.next.trans he.next
  policy u := by rw [he.mem, h.policy]
  probes u := by rw [he.mem, h.probes]
  abandoned := by
    have htick : s'.tick = s.tick := congrArg List.length he.log
    rw [htick, he.abandoned]
    exact h.abandoned

theorem Ground.restarts (h : Ground env c s₀ s) :
    (s.mem u).val.restarts = (s₀.mem u).val.restarts := by
  unfold Record.restarts
  rw [h.policy]

theorem Ground.isSidecar (h : Ground env c s₀ s) :
    (s.mem u).val.isSidecar = (s₀.mem u).val.isSidecar := by
  unfold Record.isSidecar
  rw [h.policy]

/-- The members of a stage that hold on to a container. -/
def Stage.Holds (g : Stage) (s₀ : World) (u : Uuid) : Prop :=
  u ∈ g.owned ∨ u ∈ g.seen ∨ u ∈ g.done ∧ (s₀.mem u).val.isSidecar = false

theorem Inv.onward (h : Inv env c s₀ g s) (hground : Ground env c s₀ s') (ho : Onward gone s s')
    (hnext : s.nextId ≤ s'.nextId) (hback : ∀ k' ∈ s'.containers, ∃ k ∈ s.containers, Ages k k')
    (htries : ∀ u, plain c s₀ u = true → attempts u s' = attempts u s)
    (hspared : ∀ u, g.Holds s₀ u → Spared gone u s) : Inv env c s₀ g s' where
  toGround := hground
  done m hm := (h.done m hm).onward ho fun hside => hspared m (.inr (.inr ⟨hm, hside⟩))
  owned u hu := (h.owned u hu).onward ho (hspared u (.inl hu))
  seen m hm := (h.seen m hm).onward ho (hspared m (.inr (.inl hm)))
  known u o hu := by rw [ho.mem]; exact h.known u o hu
  live k' hk' hlive := by
    obtain ⟨k, hk, hage⟩ := hback k' hk'
    rw [hage.id]
    exact h.live k hk ⟨hage.id ▸ hlive.1, hage.name ▸ hlive.2.1, hage.live hlive.2.2⟩
  made x hx := (h.made x hx).later ho.log
  named x hx := by
    refine ⟨Nat.lt_of_lt_of_le (h.named x hx).1 hnext, fun k' hk' hid => ?_⟩
    obtain ⟨k, hk, hage⟩ := hback k' hk'
    rw [hage.name]
    exact (h.named x hx).2 k hk (hage.id ▸ hid)
  dead id hid := by
    refine ⟨Nat.lt_of_lt_of_le (h.dead id hid).1 hnext, fun k' hk' hkid => ?_⟩
    obtain ⟨k, hk, hage⟩ := hback k' hk'
    have hover := (h.dead id hid).2 k hk (hage.id ▸ hkid)
    rw [hage.dead hover, hover]
  tries u hu := by rw [htries u hu, h.tries u hu]

theorem Inv.effect (h : Inv env c s₀ g s) (he : Effected gone s s')
    (hspared : ∀ u, g.Holds s₀ u → Spared gone u s) : Inv env c s₀ g s' :=
  h.onward (h.toGround.effect he) he.onward he.next he.back
    (fun u _ => congrArg (List.countP fun x : Call × Answer => createsFor u x.1) he.log) hspared

/-- An effect that removes no container. -/
theorem Inv.harmless (h : Inv env c s₀ g s) (he : Effected (fun _ => False) s s') :
    Inv env c s₀ g s' := h.effect he fun _ _ _ _ => not_false

theorem Ground.turn (h : Ground env c s₀ s) (x : Call) : Ground env c s₀ (s.turn env x) := by
  have he : Effected (fun _ => False) s
      { s with containers := s.containers.map (CriContainer.exit (env.exits s.tick)) } :=
    effected_map fun k _ => ages_exit _ k
  exact {
    toCounted := Counted.sublist h.toCounted he.next he.ids
    log := h.log.trans (List.suffix_cons ..)
    next := h.next
    policy := h.policy
    probes := h.probes
    abandoned := by
      intro hab
      show c.uuid ∈ env.abandons s.tick ++ s.abandoned
      rcases hab with hab | ⟨t, hle, hlt, hab⟩
      · exact List.mem_append_right _ (h.abandoned (.inl hab))
      · have hlast : t < s.tick + 1 := hlt
        rcases Nat.lt_or_eq_of_le (Nat.le_of_lt_succ hlast) with hlt | rfl
        · exact List.mem_append_right _ (h.abandoned (.inr ⟨t, hle, hlt, hab⟩))
        · exact List.mem_append_left _ hab }

theorem attempts_turn (x : Call) :
    attempts u (s.turn env x) = attempts u s + if createsFor u x = true then 1 else 0 :=
  List.countP_cons

/-- A call that is not made for a plain init container. -/
theorem Inv.turn (h : Inv env c s₀ g s) {x : Call}
    (hx : ∀ u, plain c s₀ u = true → createsFor u x = false) : Inv env c s₀ g (s.turn env x) := by
  have he : Effected (fun _ => False) s
      { s with containers := s.containers.map (CriContainer.exit (env.exits s.tick)) } :=
    effected_map fun k _ => ages_exit _ k
  refine h.onward (h.toGround.turn x) ⟨List.suffix_cons .., rfl, he.kept⟩ (Nat.le_refl _) he.back
    (fun u hu => ?_) fun _ _ _ _ => not_false
  rw [attempts_turn, hx u hu]
  rfl

/-- A stage with one more attempt for a member, which counts if it is a plain init container. -/
def Stage.tried (g : Stage) (c : Capsule) (s₀ : World) (u : Uuid) : Stage :=
  { g with tries := if plain c s₀ u = true then Function.update g.tries u (g.tries u + 1) else g.tries }

/-- A call that makes a container. -/
theorem Inv.turn_create (h : Inv env c s₀ g s) (pod : RuntimeId) (u : Uuid) (attempt : Nat) :
    Inv env c s₀ (g.tried c s₀ u) (s.turn env (.createContainer pod u attempt)) := by
  have hother : Inv env c s₀ g (s.turn env .getComputeNode) := h.turn fun _ _ => rfl
  exact {
    toGround := h.toGround.turn _
    done := fun m hm => (h.done m hm).onward ⟨List.suffix_cons .., rfl, fun k hk _ =>
      ⟨_, List.mem_map_of_mem hk, ages_exit _ k⟩⟩ fun _ _ _ => not_false
    owned := hother.owned
    seen := fun m hm => (h.seen m hm).onward ⟨List.suffix_cons .., rfl, fun k hk _ =>
      ⟨_, List.mem_map_of_mem hk, ages_exit _ k⟩⟩ fun _ _ => not_false
    known := hother.known
    live := hother.live
    made := fun x hx => (h.made x hx).later (List.suffix_cons ..)
    named := hother.named
    dead := hother.dead
    tries := by
      intro v hv
      rw [attempts_turn, h.tries v hv]
      by_cases hvu : u = v
      · subst hvu
        simp [createsFor, Stage.tried, hv, Nat.add_assoc]
      · have hsame : (g.tried c s₀ u).tries v = g.tries v := by
          unfold Stage.tried
          split
          · exact Function.update_of_ne (Ne.symm hvu) ..
          · rfl
        rw [hsame]
        simp [createsFor, hvu] }

/-- The container that `CreateContainer` makes. -/
def newContainer (pod : RuntimeId) (u : Uuid) (attempt : Nat) (s : World) : CriContainer :=
  { id := s.nextId, sandbox := pod, name := u, attempt, state := .created }

/-- The runtime with one more container. -/
def withContainer (k : CriContainer) (s : World) : World :=
  { s with containers := k :: s.containers, nextId := s.nextId + 1 }

/-- A stage with a new container for a member. -/
def Stage.given (g : Stage) (c : Capsule) (s₀ : World) (u : Uuid) (id : RuntimeId) : Stage :=
  { g with
    live := if plain c s₀ u = true then some id else g.live
    named := (id, u) :: g.named }

theorem Inv.create (h : Inv env c s₀ g s) (pod : RuntimeId) (attempt : Nat)
    (hlive : plain c s₀ u = true → g.live = none) :
    Inv env c s₀ (g.given c s₀ u s.nextId) (withContainer (newContainer pod u attempt s) s) := by
  have ho : Onward (fun _ => False) s (withContainer (newContainer pod u attempt s) s) :=
    ⟨List.suffix_refl _, rfl, fun k hk _ => ⟨k, List.mem_cons_of_mem _ hk, Ages.refl k⟩⟩
  exact {
    ids := by
      intro k hk
      rcases List.mem_cons.mp hk with rfl | hk
      · exact Nat.lt_succ_self _
      · exact Nat.lt_succ_of_lt (h.ids k hk)
    nodup := by
      refine List.nodup_cons.mpr ⟨fun hmem => ?_, h.nodup⟩
      obtain ⟨k, hk, hid⟩ := List.mem_map.mp hmem
      exact absurd (h.ids k hk) (by rw [hid]; exact Nat.lt_irrefl _)
    log := h.log
    next := h.next.trans (Nat.le_succ _)
    policy := h.policy
    probes := h.probes
    abandoned := h.abandoned
    done := fun m hm => (h.done m hm).onward ho fun _ _ _ => not_false
    owned := fun u hu => (h.owned u hu).onward ho fun _ _ => not_false
    seen := fun m hm => (h.seen m hm).onward ho fun _ _ => not_false
    known := h.known
    live := by
      intro k hk hk'
      rcases List.mem_cons.mp hk with rfl | hk
      · exact if_pos hk'.2.1
      · have hold := h.live k hk hk'
        show (if plain c s₀ u = true then some s.nextId else g.live) = some k.id
        split
        next hplain =>
          rw [hlive hplain] at hold
          cases hold
        next => exact hold
    made := h.made
    named := by
      intro x hx
      rcases List.mem_cons.mp hx with rfl | hx
      · refine ⟨Nat.lt_succ_self _, fun k hk hid => ?_⟩
        rcases List.mem_cons.mp hk with rfl | hk
        · rfl
        · exact absurd (h.ids k hk) (by rw [hid]; exact Nat.lt_irrefl _)
      · refine ⟨Nat.lt_succ_of_lt (h.named x hx).1, fun k hk hid => ?_⟩
        rcases List.mem_cons.mp hk with rfl | hk
        · have hlt := (h.named x hx).1
          rw [← hid] at hlt
          exact absurd hlt (Nat.lt_irrefl _)
        · exact (h.named x hx).2 k hk hid
    dead := by
      intro id hid
      refine ⟨Nat.lt_succ_of_lt (h.dead id hid).1, fun k hk hkid => ?_⟩
      rcases List.mem_cons.mp hk with rfl | hk
      · have hlt := (h.dead id hid).1
        rw [← hkid] at hlt
        exact absurd hlt (Nat.lt_irrefl _)
      · exact (h.dead id hid).2 k hk hkid
    tries := h.tries }

/-- One container of several has an id. -/
theorem Counted.eq_of_id (h : Counted s) {k k' : CriContainer} (hk : k ∈ s.containers)
    (hk' : k' ∈ s.containers) (hid : k.id = k'.id) : k = k' :=
  List.inj_on_of_nodup_map h.nodup hk hk' hid

theorem mem_of_find {k : CriContainer} {id : RuntimeId}
    (hfind : find id s = some k) : k ∈ s.containers ∧ k.id = id := by
  refine ⟨List.mem_of_find?_eq_some hfind, ?_⟩
  have := List.find?_some hfind
  simpa using this

/-- `StartContainer` where it goes well. -/
theorem Inv.start (h : Inv env c s₀ g s) {id : RuntimeId} (hstate : stateOf id s = some .created)
    (f : CriContainer → CriContainer) (hid : ∀ k, (f k).id = k.id)
    (hname : ∀ k, (f k).name = k.name) : Inv env c s₀ g (alter id f s) := by
  obtain ⟨k₀, hfind, hcreated⟩ := Option.map_eq_some_iff.mp hstate
  obtain ⟨hk₀, hk₀id⟩ := mem_of_find hfind
  refine h.harmless (effected_map fun k hk => ?_)
  split
  next hkid =>
    have hsame : k = k₀ := h.toCounted.eq_of_id hk hk₀ (hkid.trans hk₀id.symm)
    refine ⟨hid k, hname k, fun hover => ?_⟩
    rw [hsame, hcreated] at hover
    cases hover
  next => exact Ages.refl k

/-- A container is removed that no one else holds on to. -/
theorem Inv.remove (h : Inv env c s₀ g s) {id : RuntimeId}
    (hname : ∀ k ∈ s.containers, k.id = id → k.name = u)
    (hfree : g.Holds s₀ u → (s.mem u).val.containerId ≠ some id) :
    Inv env c s₀ g { s with containers := s.containers.filter (·.id ≠ id) } := by
  have he : Effected (· = id) s { s with containers := s.containers.filter (·.id ≠ id) } :=
    effected_filter s _ fun k _ hk => by simpa using hk
  refine h.effect he ?_
  intro v hv id' hid' hgone
  subst hgone
  -- whoever holds on to the container bears its name
  have hvu : ∃ k ∈ s.containers, (s.mem v).val.containerId = some k.id ∧ k.name = v := by
    rcases hv with hv | hv | ⟨hv, hside⟩
    · obtain ⟨k, hk, hid, hname, -⟩ := h.owned v hv
      exact ⟨k, hk, hid, hname⟩
    · obtain ⟨k, hk, hname, -, -, hid, -⟩ := h.seen v hv
      exact ⟨k, hk, hid, hname⟩
    · have hdone := h.done v hv
      unfold Done at hdone
      rw [hside, if_neg Bool.false_ne_true] at hdone
      obtain ⟨k, hk, hname, -, -, hid, -⟩ := hdone.1
      exact ⟨k, hk, hid, hname⟩
  obtain ⟨k, hk, hid, hkv⟩ := hvu
  rw [hid'] at hid
  have hku := hname k hk (Option.some.inj hid).symm
  rw [hkv] at hku
  subst hku
  exact hfree hv hid'

/-! ## What assignments do -/

/-- An assignment that leaves alone what the order goes by. -/
structure Bland (f : Obj → Obj) : Prop where
  policy : ∀ o, (f o).val.restartPolicy = o.val.restartPolicy
  probes : ∀ o, (f o).val.healthcheck.probes = o.val.healthcheck.probes

/-- A stage with an object that is known. -/
def Stage.know (g : Stage) (u : Uuid) (o : Obj) : Stage :=
  { g with known := Function.update g.known u (some o) }

theorem Stage.know_self (g : Stage) (u : Uuid) (o : Obj) : (g.know u o).known u = some o :=
  Function.update_self ..

theorem Stage.know_of_ne (g : Stage) {u v : Uuid} (o : Obj) (h : v ≠ u) :
    (g.know u o).known v = g.known v := Function.update_of_ne h ..

theorem Inv.know (h : Inv env c s₀ g s) (u : Uuid) : Inv env c s₀ (g.know u (s.mem u)) s :=
  { h with
    known := by
      intro v o hv
      by_cases hvu : v = u
      · subst hvu
        rw [Stage.know_self] at hv
        exact Option.some.inj hv
      · rw [Stage.know_of_ne g _ hvu] at hv
        exact h.known v o hv }

theorem Inv.known_know {o : Obj} (h : Inv env c s₀ (g.know u o) s) : s.mem u = o :=
  h.known u o (g.know_self u o)

theorem Inv.assign (h : Inv env c s₀ g s) {f : Obj → Obj} (hf : Bland f)
    (howned : u ∈ g.owned → Owns s₀ u (s.setMem u f))
    (hseen : u ∉ g.seen) (hdone : u ∈ g.done → (s₀.mem u).val.isSidecar = true) :
    Inv env c s₀ (g.know u (f (s.mem u))) (s.setMem u f) := by
  have hother : ∀ v, v ≠ u → (s.setMem u f).mem v = s.mem v := fun v hv => World.setMem_mem_of_ne hv f
  exact {
    ids := h.ids
    nodup := h.nodup
    log := h.log
    next := h.next
    policy := by
      intro v
      by_cases hv : v = u
      · subst hv
        rw [World.setMem_mem_self, hf.policy, h.policy]
      · rw [hother v hv, h.policy]
    probes := by
      intro v
      by_cases hv : v = u
      · subst hv
        rw [World.setMem_mem_self, hf.probes, h.probes]
      · rw [hother v hv, h.probes]
    abandoned := h.abandoned
    done := by
      intro m hm
      have hold := h.done m hm
      unfold Done at hold ⊢
      by_cases hside : (s₀.mem m).val.isSidecar = true
      · rw [if_pos hside] at hold ⊢
        exact hold
      · have hne : m ≠ u := fun he => hside (by rw [he]; exact hdone (he ▸ hm))
        rw [if_neg hside] at hold ⊢
        unfold Succeeded Seen at hold ⊢
        rw [hother m hne]
        exact hold
    owned := by
      intro v hv
      by_cases hvu : v = u
      · subst hvu
        exact howned hv
      · have hold := h.owned v hv
        unfold Owns at hold ⊢
        rw [hother v hvu]
        exact hold
    seen := by
      intro m hm
      have hne : m ≠ u := fun he => hseen (he ▸ hm)
      have hold := h.seen m hm
      unfold Seen at hold ⊢
      rw [hother m hne]
      exact hold
    known := by
      intro v o hv
      by_cases hvu : v = u
      · subst hvu
        rw [Stage.know_self] at hv
        rw [World.setMem_mem_self]
        exact Option.some.inj hv
      · rw [Stage.know_of_ne g _ hvu] at hv
        rw [hother v hvu]
        exact h.known v o hv
    live := h.live
    made := h.made
    named := h.named
    dead := h.dead
    tries := h.tries }

/-- An assignment that leaves alone which container is on the record. -/
theorem Owns.assign (h : Owns s₀ u s) {f : Obj → Obj}
    (hf : (f (s.mem u)).val.containerId = (s.mem u).val.containerId) : Owns s₀ u (s.setMem u f) := by
  obtain ⟨k, hk, hid, hname, hnew⟩ := h
  refine ⟨k, hk, ?_, hname, hnew⟩
  rw [World.setMem_mem_self, hf, hid]

/-- A `save` leaves what the objects say as it is. -/
theorem Inv.saved (h : Inv env c s₀ g s) (row : Record) {o : Obj} (ho : s.mem u = o) :
    Inv env c s₀ (g.know u (Obj.of o.val)) (s.saved u row) := by
  have hval : ∀ v, ((s.saved u row).mem v).val = (s.mem v).val := fun v => World.saved_val v row
  exact {
    ids := h.ids
    nodup := h.nodup
    log := h.log
    next := h.next
    policy := fun v => by rw [hval, h.policy]
    probes := fun v => by rw [hval, h.probes]
    abandoned := h.abandoned
    done := by
      intro m hm
      have hold := h.done m hm
      unfold Done Succeeded Seen at hold ⊢
      rw [hval]
      exact hold
    owned := by
      intro v hv
      have hold := h.owned v hv
      unfold Owns at hold ⊢
      rw [hval]
      exact hold
    seen := by
      intro m hm
      have hold := h.seen m hm
      unfold Seen at hold ⊢
      rw [hval]
      exact hold
    known := by
      intro v o' hv
      by_cases hvu : v = u
      · subst hvu
        rw [Stage.know_self] at hv
        rw [World.saved_mem_self, ho]
        exact Option.some.inj hv
      · rw [Stage.know_of_ne g _ hvu] at hv
        rw [World.saved_mem_of_ne hvu]
        exact h.known v o' hv
    live := h.live
    made := h.made
    named := h.named
    dead := h.dead
    tries := h.tries }

/-! ## What a stage may forget -/

/-- A stage that knows no more than another. -/
structure Stage.Le (g' g : Stage) : Prop where
  done : g'.done ⊆ g.done
  owned : g'.owned ⊆ g.owned
  seen : g'.seen ⊆ g.seen
  known : ∀ u o, g'.known u = some o → g.known u = some o
  live : g'.live = g.live
  made : g'.made ⊆ g.made
  named : g'.named ⊆ g.named
  dead : g'.dead ⊆ g.dead
  tries : g'.tries = g.tries

theorem Inv.mono {g' : Stage} (h : Inv env c s₀ g s) (hle : g'.Le g) : Inv env c s₀ g' s :=
  { h with
    done := fun m hm => h.done m (hle.done hm)
    owned := fun u hu => h.owned u (hle.owned hu)
    seen := fun m hm => h.seen m (hle.seen hm)
    known := fun u o hu => h.known u o (hle.known u o hu)
    live := fun k hk hk' => hle.live ▸ h.live k hk hk'
    made := fun x hx => h.made x (hle.made hx)
    named := fun x hx => h.named x (hle.named hx)
    dead := fun x hx => h.dead x (hle.dead hx)
    tries := fun u hu => hle.tries ▸ h.tries u hu }

theorem Stage.Le.refl (g : Stage) : g.Le g :=
  ⟨fun _ h => h, fun _ h => h, fun _ h => h, fun _ _ h => h, rfl, fun _ h => h, fun _ h => h,
    fun _ h => h, rfl⟩

/-- What is known of an object is forgotten. -/
theorem Stage.le_know (g : Stage) {o : Obj} (hu : g.known u = none) : g.Le (g.know u o) := by
  refine { Stage.Le.refl g with known := fun v o' hv => ?_ }
  by_cases hvu : v = u
  · subst hvu
    rw [hu] at hv
    cases hv
  · rw [g.know_of_ne o hvu]
    exact hv

end Inv

/-! ## Runs from stage to stage -/

/-- A run that goes on is at a stage. -/
def On (env : Env) (c : Capsule) (s₀ : World) (g : Stage) (s : World) : Prop :=
  Inv env c s₀ g s ∧ ∀ x, Last s₀ x s → x.2 ≠ .halt

/-- A run that failed somewhere. -/
def Fallen (env : Env) (c : Capsule) (s₀ s : World) : Prop :=
  ∃ live tries, On env c s₀ { live, tries } s

/-- A container for a member could not be made and started.  Only a plain init container leaves a trace
of it. -/
def Fell (env : Env) (c : Capsule) (s₀ : World) (g : Stage) (u : Uuid) (s : World) : Prop :=
  Fallen env c s₀ s ∧ (plain c s₀ u = false → On env c s₀ g s)

/-- A stage from which a container may be made for a member. -/
structure Ready (c : Capsule) (s₀ : World) (g : Stage) (u : Uuid) : Prop where
  order : ∀ i ∈ before c u, i ∈ g.done
  alone : plain c s₀ u = true → g.live = none
  policy : u ∈ c.containers → (s₀.mem c.uuid).val.restarts = false →
    ∀ i, plain c s₀ i = true → g.tries i = 1

/-- A stage with one more call that was made. -/
def Stage.note (g : Stage) (x : Call × Answer) : Stage := { g with made := x :: g.made }

theorem Stage.le_note (g : Stage) (x : Call × Answer) : g.Le (g.note x) :=
  { Stage.Le.refl g with made := List.subset_cons_self x g.made }

/-- What is left of a stage when a run fails. -/
def Stage.bare (g : Stage) : Stage := { live := g.live, tries := g.tries }

theorem Stage.le_bare (g : Stage) : g.bare.Le g where
  done := List.nil_subset _
  owned := List.nil_subset _
  seen := List.nil_subset _
  known _ _ h := by cases h
  live := rfl
  made := List.nil_subset _
  named := List.nil_subset _
  dead := List.nil_subset _
  tries := rfl

theorem Stage.know_know (g : Stage) (u : Uuid) (o o' : Obj) : (g.know u o).know u o' = g.know u o' := by
  unfold Stage.know
  rw [Function.update_idem]

section Stages

variable {env : Env} {c : Capsule} {s₀ s s' : World} {g g' : Stage} {u m : Uuid} {o : Obj}

theorem On.mono (h : On env c s₀ g s) (hle : g'.Le g) : On env c s₀ g' s := ⟨h.1.mono hle, h.2⟩

theorem On.fallen (h : On env c s₀ g s) : Fallen env c s₀ s :=
  ⟨g.live, g.tries, h.mono g.le_bare⟩

theorem On.effect (h : On env c s₀ g s) (hinv : Inv env c s₀ g' s') (hlog : s'.log = s.log) :
    On env c s₀ g' s' := by
  refine ⟨hinv, fun x hx => h.2 x ?_⟩
  unfold Last at hx ⊢
  rw [← hlog]
  exact hx

theorem Inv.oneLive (h : Inv env c s₀ g s) : OneLive c s₀ s := by
  intro k hk k' hk' hlive hlive'
  have hsame := (h.live k hk hlive).symm.trans (h.live k' hk' hlive')
  exact Option.some.inj hsame

/-- Where a run goes on, it did not stop. -/
theorem On.orderly (h : On env c s₀ g s) : Orderly env c s₀ 2 s :=
  ⟨h.1.oneLive, fun _ _ _ hlast => absurd rfl (h.2 _ hlast)⟩

theorem Fallen.orderly (h : Fallen env c s₀ s) : Orderly env c s₀ 2 s := by
  obtain ⟨live, tries, hon⟩ := h
  exact hon.orderly

/-- The call makes no container. -/
def Harmless (x : Call) : Prop := ∀ u, createsFor u x = false

theorem last_turn {x y : Call} {a : Answer} (h : Last s₀ (y, a) (s.turn env x)) :
    y = x ∧ a = env.answer s.tick x := by
  obtain ⟨t, ht, -⟩ := h
  have hhead := (List.cons.inj ht).1
  exact ⟨(congrArg Prod.fst hhead).symm, (congrArg Prod.snd hhead).symm⟩

theorem On.turn (h : On env c s₀ g s) {x : Call} (hinv : Inv env c s₀ g' (s.turn env x))
    (hgoing : env.answer s.tick x ≠ .halt) :
    On env c s₀ (g'.note (x, env.answer s.tick x)) (s.turn env x) := by
  refine ⟨{ hinv with made := ?_ }, ?_⟩
  · intro y hy
    rcases List.mem_cons.mp hy with rfl | hy
    · exact (made_turn env x s).since h.1.log
    · exact hinv.made y hy
  · rintro ⟨y, a⟩ hlast
    rw [(last_turn hlast).2]
    exact hgoing

/-- A run that stops at a call that makes no container. -/
theorem Inv.stops (h : Inv env c s₀ g s) {x : Call} (hx : Harmless x) :
    Orderly env c s₀ 2 (s.turn env x) := by
  refine ⟨(h.turn fun u _ => hx u).oneLive, fun pod m attempt hlast => ?_⟩
  have hcall := (last_turn hlast).1
  have hcreates : createsFor m x = true := by
    rw [← hcall]
    exact decide_eq_true rfl
  rw [hx m] at hcreates
  cases hcreates

theorem wanted_turn {n : Nat} (x : Call) (h : Wanted env c s₀ n s) :
    Wanted env c s₀ (n + 1) (s.turn env x) := by
  refine ⟨h.1, fun t hle hlt => h.2 t hle ?_⟩
  have htick : (s.turn env x).tick = s.tick + 1 := rfl
  omega

theorem Ground.wanted (h : Ground env c s₀ s) (hab : c.uuid ∉ s.abandoned) :
    Wanted env c s₀ 0 s :=
  ⟨fun h' => hab (h.abandoned (.inl h')), fun t hle hlt h' => hab (h.abandoned (.inr ⟨t, hle, hlt, h'⟩))⟩

/-- A run that stops at the call that makes a container. -/
theorem Inv.stops_create (h : Inv env c s₀ g s) (hr : Ready c s₀ g u) (hw : Wanted env c s₀ 1 s)
    (pod : RuntimeId) (attempt : Nat) :
    Orderly env c s₀ 2 (s.turn env (.createContainer pod u attempt)) := by
  have hinv := h.turn_create pod u attempt
  refine ⟨hinv.oneLive, fun pod' m attempt' hlast => ?_⟩
  obtain ⟨-, hm, -⟩ := Call.createContainer.inj (last_turn hlast).1
  subst hm
  exact {
    order := fun i hi => hinv.done i (hr.order i hi)
    alone := by
      intro hplain k hk hlive
      have hsome : g.live = some k.id := hinv.live k hk hlive
      rw [hr.alone hplain] at hsome
      cases hsome
    policy := by
      intro hmain hpolicy i hi
      have hnot : ¬ plain c s₀ m = true := by
        intro hplain
        have hinit : m ∈ c.initContainers := by
          unfold plain at hplain
          simp only [Bool.and_eq_true, List.contains_iff_mem] at hplain
          exact hplain.1
        exact List.disjoint_of_nodup_append (List.nodup_cons.mp c.distinct).2 hinit hmain
      have htries : (g.tried c s₀ m).tries i = g.tries i := by
        unfold Stage.tried
        rw [if_neg hnot]
      rw [hinv.tries i hi, htries, hr.policy hmain hpolicy i hi]
    wanted := wanted_turn _ hw }

end Stages

end StartOrder

end Cri

end Zun
