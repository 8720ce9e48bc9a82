import Zun.Container.DockerPortsRebuild

/-!
# A create

Until its first port a create has made nothing that the record would have to name, and if it fails the
record is failed and loses its host.  From then on a failure is harmful, until the record is saved.
After that only an exception that sends the create back to its claim is.
-/

namespace Zun

open Effect Prog World Manager

namespace DockerPorts

variable {u : Uuid} {k n : Nat} {calls : List (Call × Answer)} {s s' : World} {env : Env}
  {I : World → Prop} {bad : Call × Answer → List (Call × Answer) → Prop}
  {E : Exn → World → Prop} {nets : List RequestedNetwork} {vols : RequestedVolumes}

/-! ## The states of a create -/

/-- Nothing was made so far for the networks that are asked for, and so many volumes are to come.  The
record asks for memory, and so the claim gives it a host. -/
structure Early (u : Uuid) (k : Nat) (calls : List (Call × Answer)) (nets : List RequestedNetwork)
    (n : Nat) (s : World) : Prop where
  unmade : Unmade u calls s
  memory : (s.mem u).val.memory ≠ 0
  asks : ∀ net ∈ nets, Asks s.wires net
  few : held u s + n ≤ k

/-- The record has got its host by the claim. -/
abbrev Claimed (u : Uuid) (k : Nat) (calls : List (Call × Answer)) (nets : List RequestedNetwork)
    (n : Nat) (s : World) : Prop := Early u k calls nets n s ∧ Hosted u s

/-- The ports were made, and the record was saved. -/
structure Made (u : Uuid) (k : Nat) (calls : List (Call × Answer)) (s : World) : Prop where
  settled : Settled u k calls (fun _ => True) true false s
  did : Did movesPort calls s

/-- A create that has raised has made nothing, or is not sent back to its claim. -/
def Broken (u : Uuid) (k : Nat) (calls : List (Call × Answer)) (e : Exn) (s : World) : Prop :=
  Unmade u calls s ∨ (e.cls ≠ .resourcesUnavailable ∧ Made u k calls s)

instance : Leveled u (Early u k calls nets n) where
  congr h hs := ⟨h.unmade.congr hs, by rw [hs.memory]; exact h.memory, by rw [hs.wires]; exact h.asks,
    Nat.le_trans (Nat.add_le_add_right (held_mono hs.maps) n) h.few⟩

instance : Leveled u (Made u k calls) where
  congr h hs := ⟨h.settled.congr hs, h.did.mono hs.log⟩

instance : Lenient (Kept (Early u k calls nets n)) :=
  lenient_of_save fun _ _ hrow h => ⟨h.unmade.saved hrow, by rw [saved_val]; exact h.memory, h.asks, h.few⟩

instance : Lenient (Kept (Made u k calls)) :=
  lenient_of_save fun _ _ hrow h => ⟨h.settled.saved hrow, h.did⟩

theorem Claimed.building (h : Claimed u k calls nets n s) {net : RequestedNetwork}
    (hlast : nets.getLast? = some net) : Building u k calls [] (net :: nets.dropLast) none s := by
  have heq : nets.dropLast ++ [net] = nets := List.dropLast_append_getLast? net hlast
  obtain ⟨h, hhosted⟩ := h
  refine ⟨h.unmade.wired, hhosted.row, hhosted.obj, ?_, fun net' hmem => ?_, nofun,
    Nat.le_trans (Nat.le_add_right _ _) h.few, h.unmade.since⟩
  · exact ⟨List.nodup_nil, fun _ hmem => absurd hmem List.not_mem_nil,
      fun p hp hmade => absurd (hmade.symm.trans (h.unmade.ports p hp)) nofun⟩
  · have hmem' : net' ∈ nets := by
      rw [← heq]
      rcases List.mem_cons.mp hmem with rfl | hmem
      · exact List.mem_append_right _ (List.mem_singleton_self _)
      · exact List.mem_append_left _ hmem
    rcases h.asks net' hmem' with hnone | ⟨p, hp, hport, hnet, hkeep⟩
    · exact .inl hnone
    · exact .inr ⟨p, hp, hport, hnet, by rw [hkeep, h.unmade.ports p hp]; rfl⟩

/-! ## Before the ports -/

theorem unmade_failContainer (depth : Nat) (msg : String) (unsetHost : Bool) :
    Unless (Spoiled bad calls) (Unmade u calls) (fun _ => Unmade u calls) (fun _ => Unmade u calls)
      (failContainer env depth (.container u) msg unsetHost) :=
  unless_keeps (within_failContainer _ _ _ _) (within_failContainer _ _ _ _) fun _ _ hs => hs

/-- A create that is given up. -/
theorem unless_givenUp {J : Unit → World → Prop} (msg : String) (e : Exn) :
    Unless (Spoiled bad calls) (Unmade u calls) J (fun _ => Unmade u calls) (do
      failContainer env failDepth (.container u) msg true
      raise e) :=
  (unmade_failContainer _ _ _).bind fun _ => unless_raise (E := fun _ => Unmade u calls) e

theorem early_unmade (_ : Exn) (s : World) (hs : Early u k calls nets n s) : Unmade u calls s := hs.unmade

theorem unless_waitForVolumesAvailable :
    Unless (Spoiled bad calls) (Early u k calls nets n) (fun _ => Early u k calls nets n)
      (fun _ => Unmade u calls) (waitForVolumesAvailable env vols (.container u)) := by
  refine Unless.bind (unless_keeps (I := Early u k calls nets n) ?_ ?_ early_unmade) fun failure => ?_
  · exact ((within_pollAvailable _ _).bind fun _ => within_pure _).tryExcept fun _ => within_pure _
  · exact ((within_pollAvailable _ _).bind fun _ => within_pure _).tryExcept fun _ => within_pure _
  cases failure with
  | none => exact unless_pure (J := fun _ => Early u k calls nets n) ()
  | some msg =>
      refine Unless.bind (J := fun _ => Unmade u calls) ?_ fun _ => unless_givenUp msg _
      refine (unless_keeps (I := Unmade u calls) ?_ ?_ fun _ _ hs => hs).pre fun s hs => hs.unmade
      · exact within_forEach fun _ _ => (within_plain _ rfl).swallow
      · exact within_forEach fun _ _ => (within_plain _ rfl).swallow

theorem unless_createVolmap {v : VolMap} :
    Unless (Spoiled bad calls) (Early u k calls nets (n + 1)) (fun _ => Early u k calls nets n)
      (fun _ => Unmade u calls) (createVolmap env u v) where
  kept := within_createVolmap u v
  ends s hs := by
    refine wp_createVolmap env (fun _ => .inr hs.unmade) fun _ => wp_call (fun _ => .inr ?_)
      (fun _ _ => .inr (leveled_turn (I := Unmade u calls) _ hs.unmade)) fun _ => .inr trivial
    have hturn : Early u k calls nets (n + 1) (s.turn env (.createVolmap v.id)) := leveled_turn _ hs
    refine ⟨⟨hturn.unmade.wired, hturn.unmade.row, hturn.unmade.obj, hturn.unmade.ports,
      hturn.unmade.docker, hturn.unmade.since⟩, hturn.memory, hturn.asks, ?_⟩
    have hcount : held u { s.turn env (.createVolmap v.id) with
        volmaps := { v with containerUuid := u } :: s.volmaps } = held u s + 1 := by
      unfold held
      exact List.countP_cons_of_pos (decide_eq_true rfl)
    have hfew := hs.few
    show held u { s.turn env (.createVolmap v.id) with
      volmaps := { v with containerUuid := u } :: s.volmaps } + n ≤ k
    rw [hcount]
    omega

theorem unless_attachVolumes :
    Unless (Spoiled bad calls) (Early u k calls nets (vols.of u).length)
      (fun _ => Early u k calls nets 0) (fun _ => Unmade u calls)
      (attachVolumes env vols (.container u)) := by
  refine Unless.reraising (F := fun _ => Unmade u calls) ?_ fun e => unmade_failContainer _ _ _
  refine unless_forEach (P := fun vs => Early u k calls nets vs.length) (vols.of u) fun v rest _ => ?_
  refine unless_createVolmap.bind fun _ => ?_
  refine Unless.bind (J := fun _ => Early u k calls nets rest.length) (unless_read _ fun _ hs => hs)
    fun connected => ?_
  refine unless_ite (fun _ => unless_pure (J := fun _ => Early u k calls nets rest.length) ()) fun _ => ?_
  exact unless_keeps (within_attachVolume v) (within_attachVolume v) early_unmade

/-- A call of a create before its ports. -/
theorem unless_early (c : Call) :
    Unless (Spoiled bad calls) (Early u k calls nets n) (fun _ => Early u k calls nets n)
      (fun _ => Unmade u calls) (call env c) := unless_plain c early_unmade

theorem early_read {α : Type} (f : World → α) :
    Unless (Spoiled bad calls) (Early u k calls nets n) (fun _ => Early u k calls nets n) E
      (read f : Prog World Exn α) := unless_read f fun _ hs => hs

theorem unless_refuse (msg : String) :
    Unless (Spoiled bad calls) (Early u k calls nets n) (fun _ => Early u k calls nets n)
      (fun _ => Unmade u calls) (refuse env (.container u) msg) :=
  (unless_givenUp msg _).pre fun _ hs => hs.unmade

theorem unless_setDisk (disk : Nat) :
    Unless (Spoiled bad calls) (Early u k calls nets n) (fun _ => Early u k calls nets n) E
      (assign u (Obj.setDisk disk)) :=
  unless_assign fun s hs => Leveled.congr hs
    (level_setMem (f := Obj.setDisk disk) (fun _ => rfl) (fun _ => rfl) (fun _ => rfl) (fun _ => rfl) s)

theorem unless_checkSupportDiskQuota :
    Unless (Spoiled bad calls) (Early u k calls nets n) (fun _ => Early u k calls nets n)
      (fun _ => Unmade u calls) (checkSupportDiskQuota env (.container u)) := by
  refine (unless_early _).bind fun _ => (early_read _).bind fun disk => ?_
  refine unless_ite (fun _ => unless_setDisk _) fun _ => ?_
  refine (unless_onlyIf (fun _ => unless_refuse _) fun _ _ hs => hs).bind fun _ => ?_
  refine Unless.bind ((unless_early _).bind fun _ => early_read _) fun options => ?_
  refine (unless_onlyIf (fun _ => unless_refuse _) fun _ _ hs => hs).bind fun _ => ?_
  refine (unless_early _).bind fun _ => ?_
  refine (unless_onlyIf (fun _ => unless_refuse _) fun _ _ hs => hs).bind fun _ => ?_
  exact (unless_early _).bind fun _ => unless_onlyIf (fun _ => unless_setDisk _) fun _ _ hs => hs

/-- A claim gives the record its host. -/
theorem unless_containerClaim (pci : Bool) :
    Unless (Spoiled bad calls) (Early u k calls nets n) (fun _ => Claimed u k calls nets n)
      (fun _ => Unmade u calls) (containerClaim env u pci) := by
  refine unless_look fun asks => unless_ite (fun hno => ?_) fun _ => ?_
  · refine (unless_never (within_pure _)).pre fun s hs => ?_
    -- A record that asks for nothing would get no host.
    have hasks : ((s.mem u).val.memory ≠ 0 || (s.mem u).val.cpu ≠ 0 || pci || (s.mem u).val.disk ≠ 0)
        = asks := hs.2
    simp [hs.1.memory] at hasks
    simp [← hasks] at hno
  refine ((unless_early _).pre fun s hs => hs.1).bind fun _ => ?_
  refine (unless_early _).bind fun _ => (unless_early _).bind fun _ => ?_
  refine Unless.bind (J := fun _ s => Early u k calls nets n s ∧ (s.mem u).val.host ≠ none ∧
    (s.mem u).changed.host = true) ?_ fun _ => ?_
  · refine unless_assign fun s hs => ⟨⟨hs.unmade.setMem fun _ => rfl, ?_, hs.asks, hs.few⟩, ?_⟩
    · rw [setMem_mem_self]
      exact hs.memory
    · rw [setMem_mem_self]
      exact ⟨nofun, rfl⟩
  refine Unless.bind (J := fun _ => Claimed u k calls nets n) ?_ fun _ => ?_
  · refine unless_save (fun s hs => ?_) (fun s row hs hrow _ => ?_) fun s row e hs _ _ =>
      .inr (leveled_turn (I := Unmade u calls) _ hs.1.unmade)
    · obtain ⟨r, hr, -⟩ := hs.1.unmade.row
      exact ⟨r, hr⟩
    · obtain ⟨h, hhost, hchanged⟩ := hs
      have hturn : Early u k calls nets n (s.turn env (.save u (s.merged u row))) := leveled_turn _ h
      refine ⟨⟨hturn.unmade.saved hrow, by rw [saved_val]; exact h.memory, hturn.asks, hturn.few⟩,
        ⟨_, saved_db_self row, ?_⟩, by rw [saved_val]; exact hhost⟩
      show (if (s.mem u).changed.host then (s.mem u).val.host else row.host) ≠ none
      rw [if_pos hchanged]
      exact hhost
  refine (unless_plain (I := Claimed u k calls nets n) _ fun _ s hs => hs.1.unmade).bind fun _ => ?_
  exact unless_pure (J := fun _ => Claimed u k calls nets n) true

/-! ## From the ports on -/

/-- What comes after a create that has raised. -/
theorem unless_broken {p : Prog World Exn Unit} (e : Exn)
    (hunmade : Unless (Spoiled bad calls) (Unmade u calls) (fun _ => Unmade u calls)
      (fun _ => Unmade u calls) p)
    (hmade : Unless (Spoiled bad calls) (Made u k calls) (fun _ => Made u k calls) (Broken u k calls) p) :
    Unless (Spoiled bad calls) (Broken u k calls e) (fun _ => Broken u k calls e) (Broken u k calls) p := by
  refine Unless.or (hunmade.conseq (fun _ hs => hs) (fun _ _ hs => .inl hs) fun _ _ hs => .inl hs) ?_
  exact unless_assuming hmade.kept fun hcls => hmade.post fun _ _ hs => .inr ⟨hcls, hs⟩

/-- The last `try` of a create. -/
theorem unless_build (hips : ∀ n, env.fixedIps n ≠ [])
    (hexposed : ∀ x before, x.2 ≠ .ok → unrecorded before = true → bad x before) :
    Unless (Spoiled bad calls) (Claimed u k calls nets n) (fun _ => Made u k calls) (Broken u k calls)
      (build env (defaultDrivers env) (.container u) nets vols) := by
  refine Unless.reraising (F := fun _ => Unmade u calls) ?_ fun e =>
    (unmade_failContainer _ _ _).conseq (fun _ hs => hs) (fun _ _ hs => .inl hs) fun _ _ hs => .inl hs
  have hcall (c : Call) : Unless (Spoiled bad calls) (Claimed u k calls nets n)
      (fun _ => Claimed u k calls nets n) (fun _ => Unmade u calls) (call env c) :=
    unless_plain c fun _ _ hs => hs.1.unmade
  refine Unless.bind (unless_onlyIf (fun _ => hcall _) fun _ _ hs => hs) fun _ => ?_
  refine (unless_create hexposed hips vols (fun c _ _ => hcall c)
    (fun s c e hs _ _ _ => .inr (leveled_turn c hs.1.unmade)) (fun net hlast s hs => hs.building hlast)
    fun _ _ s hs => hs.1.unmade).post fun _ s hs => ⟨hs.1, hs.2⟩

section Made

variable (hlate : ∀ (x : Call × Answer) (before : List (Call × Answer)), x.2 ≠ .ok →
  DockerPorts.did movesPort before → raised .resourcesUnavailable x.2 → bad x before)

include hlate

/-- A call that fails once the ports were made. -/
theorem Made.broken {c : Call} {e : Exn} (h : Made u k calls s) (hanswer : env.answer s.tick c = .raise e) :
    Spoiled bad calls (s.turn env c) ∨ Broken u k calls e (s.turn env c) := by
  by_cases hcls : e.cls = .resourcesUnavailable
  · obtain ⟨before, hlog, hdid⟩ := h.did
    exact .inl (spoiled_turn hlog hanswer (hlate _ _ nofun hdid ⟨e, rfl, hcls⟩))
  · exact .inr (.inr ⟨hcls, leveled_turn c h⟩)

theorem unless_madeMark :
    Unless (Spoiled bad calls) (Made u k calls) (fun _ => Made u k calls) (Broken u k calls)
      (mark env u none) := by
  refine Unless.bind (J := fun _ => Made u k calls) ?_ fun _ => ?_
  · exact unless_assign fun s hs => leveled_setTaskState (I := Made u k calls) none s hs
  · refine unless_save (fun s hs => hs.settled.row_isSome) (fun s row hs hrow _ => ?_)
      fun s row e hs _ hanswer => hs.broken hlate hanswer
    have hturn : Made u k calls (s.turn env (.save u (s.merged u row))) := leveled_turn _ hs
    exact ⟨hturn.settled.saved hrow, hturn.did⟩

theorem unless_madeCall (c : Call) :
    Unless (Spoiled bad calls) (Made u k calls) (fun _ => Made u k calls) (Broken u k calls)
      (call env c) :=
  unless_call (fun _ => rfl) (fun _ hs _ => leveled_turn c hs)
    fun _ _ hs hanswer => hs.broken hlate hanswer

variable (hips : ∀ n, env.fixedIps n ≠ [])
  (hexposed : ∀ x before, x.2 ≠ .ok → unrecorded before = true → bad x before)

include hips hexposed

theorem unless_createBase :
    Unless (Spoiled bad calls) (Claimed u k calls nets n) (fun _ => Made u k calls) (Broken u k calls)
      (doContainerCreateBase env (defaultDrivers env) (.container u) nets vols) := by
  have hE (e : Exn) (s : World) (hs : Claimed u k calls nets n s) : Broken u k calls e s := .inl hs.1.unmade
  refine unless_updateTaskState (fun s hs _ => hs) ((unless_mark _ hE).pre fun _ hs => hs.1) ?_
    (fun _ => unless_madeMark hlate) fun e => unless_broken e ?_ (unless_madeMark hlate)
  · refine (unless_plain _ hE).bind fun _ => (unless_plain _ hE).bind fun _ => ?_
    refine Unless.bind (J := fun _ => Claimed u k calls nets n) ?_ fun _ => ?_
    · refine unless_onlyIf (fun _ => Unless.reraising (F := fun _ => Claimed u k calls nets n) ?_ fun e => ?_)
        fun _ _ hs => hs
      · refine unless_keeps ?_ ?_ fun _ _ hs => hs
        · exact (within_plain _ rfl).bind fun _ => (within_plain _ rfl).onlyIf
        · exact (within_plain _ rfl).bind fun _ => (within_plain _ rfl).onlyIf
      · exact (unmade_failContainer _ _ _).conseq (fun _ hs => hs.1.unmade) (fun _ _ hs => .inl hs)
          fun _ _ hs => .inl hs
    refine Unless.bind (unless_keeps (within_save u) (within_saveInward u) hE) fun _ => ?_
    exact unless_build hips hexposed
  · exact unless_mark none fun _ _ hs => hs

theorem unless_claimAndCreate (pci : Bool) :
    Unless (Spoiled bad calls) (Early u k calls nets n) (fun _ => Made u k calls) (Broken u k calls)
      (claimAndCreate env (defaultDrivers env) (.container u) nets vols pci) := by
  refine Unless.bind ((unless_containerClaim pci).conseq (fun _ hs => hs) (fun _ _ hs => hs)
    fun _ _ hs => .inl hs) fun real => unless_ite (fun _ => ?_) fun _ => ?_
  · refine Unless.reraising (unless_createBase hlate hips hexposed) fun e => ?_
    exact unless_broken e (unless_plain _ fun _ _ hs => hs) (unless_madeCall hlate _)
  · exact unless_createBase hlate hips hexposed

theorem unless_doContainerCreate (pci : Bool) :
    Unless (Spoiled bad calls) (Early u k calls nets n) (fun _ => Made u k calls) (fun _ => Rests u)
      (doContainerCreate env (defaultDrivers env) (.container u) nets vols pci) := by
  refine Unless.reraising (unless_claimAndCreate hlate hips hexposed pci) fun e => Unless.or ?_ ?_
  · exact (unless_keeps (I := Unmade u calls) (within_createFailed _ e) (within_createFailed _ e)
      fun _ _ hs => hs).conseq (fun _ hs => hs) (fun _ _ hs => hs.rests) fun _ _ hs => hs.rests
  · refine unless_assuming (within_createFailed _ e) fun hcls => ?_
    unfold createFailed
    rw [if_neg hcls]
    exact (unless_keeps (I := Made u k calls) (within_deleteAllocation _).swallow
      (within_deleteAllocation _).swallow fun _ _ hs => hs).conseq (fun _ hs => hs)
      (fun _ _ hs => hs.settled.rests) fun _ _ hs => hs.settled.rests

/-- The thread of a create. -/
theorem unless_containerCreate (hprompt : Prompt env k) (pci run : Bool) :
    Unless (Spoiled bad calls) (Early u k calls nets (vols.of u).length) (fun _ => Rests u)
      (fun _ => Rests u)
      (containerCreate env (defaultDrivers env) (.container u) nets vols pci run) := by
  have hearly {α : Type} {p : Prog World Exn α} {J : α → World → Prop} {m : Nat}
      (hp : Unless (Spoiled bad calls) (Early u k calls nets m) J (fun _ => Unmade u calls) p) :
      Unless (Spoiled bad calls) (Early u k calls nets m) J (fun _ => Rests u) p :=
    hp.conseq (fun _ hs => hs) (fun _ _ hs => hs) fun _ _ hs => hs.rests
  refine Unless.bind (J := fun _ => Made u k calls) ?_ fun _ => ?_
  · refine (hearly unless_waitForVolumesAvailable).bind fun _ => ?_
    refine (hearly unless_attachVolumes).bind fun _ => ?_
    refine (hearly unless_checkSupportDiskQuota).bind fun _ => ?_
    exact unless_doContainerCreate hlate hips hexposed pci
  · refine unless_onlyIf (fun _ => ?_) fun _ _ hs => hs.settled.rests
    refine (unless_keeps (I := Made u k calls) ?_ (within_startInTime (fun s hs => hs.settled.few) hprompt)
      fun _ _ hs => hs).conseq (fun _ hs => hs) (fun _ _ hs => hs.settled.rests)
        fun _ _ hs => hs.settled.rests
    exact spoiled_updateTaskState (within_startOwned (defaultDrivers_lawful env) u)

end Made

end DockerPorts

end Zun
