import Zun.Container.Cri.StartOrder.Stage

/-!
# One member of a capsule

What the functions of the driver that work on one member come to, from stage to stage: the calls to
the runtime, the container that is made and started, the look at it, the sidecars that run beside and
are looked after, and the wait for an init container.
-/

namespace Zun

open Effect Prog

namespace Cri

namespace StartOrder

/-! ## Steps from stage to stage -/

/-- A program watched at every call that makes a container. -/
abbrev Runs {α : Type} (env : Env) (c : Capsule) (s₀ : World) (I : World → Prop)
    (J : α → World → Prop) (E : Exn → World → Prop) (p : Prog World Exn α) : Prop :=
  Watched (Orderly env c s₀ 2) I J E p

/-- A program that keeps what holds, whether it returns or raises. -/
abbrev Keeps {α : Type} (env : Env) (c : Capsule) (s₀ : World) (I : World → Prop)
    (p : Prog World Exn α) : Prop :=
  Runs env c s₀ I (fun _ => I) (fun _ => I) p

/-- A world at a stage that knows the object of `u`, of which `P` holds. -/
def At (env : Env) (c : Capsule) (s₀ : World) (g : Stage) (u : Uuid) (P : Obj → Prop) (s : World) :
    Prop := ∃ o, P o ∧ On env c s₀ (g.know u o) s

/-- A stage that leaves the object of `u` free to be assigned to. -/
structure Stage.Free (g : Stage) (s₀ : World) (u : Uuid) : Prop where
  seen : u ∉ g.seen
  done : u ∈ g.done → (s₀.mem u).val.isSidecar = true

/-- What is said of an object does not depend on what the runtime says of its container. -/
structure Shallow (P : Obj → Prop) : Prop where
  status : ∀ o v, P o → P (o.setStatus v)
  statusDetail : ∀ o v, P o → P (o.setStatusDetail v)
  exitCode : ∀ o v, P o → P (o.setExitCode v)
  startedAt : ∀ o v, P o → P (o.setStartedAt v)

section Steps

variable {env : Env} {c : Capsule} {s₀ : World} {g g' : Stage} {u m : Uuid} {o : Obj}
  {P Q : Obj → Prop} {x : Call} {α : Type} {I : World → Prop} {J : α → World → Prop}
  {E : Exn → World → Prop} {p : Prog World Exn α}

theorem runs_at (h : ∀ o, P o → Runs env c s₀ (On env c s₀ (g.know u o)) J E p) :
    Runs env c s₀ (At env c s₀ g u P) J E p := by
  rintro s ⟨o, ho, hon⟩
  exact h o ho s hon

/-- What the object of `u` says becomes known. -/
theorem runs_know (h : Runs env c s₀ (At env c s₀ g u fun _ => True) J E p) :
    Runs env c s₀ (On env c s₀ g) J E p :=
  h.pre fun s hs => ⟨s.mem u, trivial, hs.1.know u, hs.2⟩

theorem At.forget {s : World} (h : At env c s₀ g u P s) (hu : g.known u = none) : On env c s₀ g s := by
  obtain ⟨o, -, hon⟩ := h
  exact hon.mono (g.le_know hu)

theorem At.weaken {s : World} (h : At env c s₀ g u P s) (hP : ∀ o, P o → Q o) :
    At env c s₀ g u Q s := by
  obtain ⟨o, ho, hon⟩ := h
  exact ⟨o, hP o ho, hon⟩

theorem At.fallen {s : World} (h : At env c s₀ g u P s) : Fallen env c s₀ s := by
  obtain ⟨o, -, hon⟩ := h
  exact hon.fallen

/-! ### Calls -/

theorem runs_noted {effect : World → World} (hx : Harmless x)
    (heffect : ∀ s, Inv env c s₀ (g.note (x, .ok)) s → Inv env c s₀ g' (effect s) ∧ (effect s).log = s.log) :
    Runs env c s₀ (On env c s₀ g) (fun _ => On env c s₀ g')
      (fun e => On env c s₀ (g.note (x, .raise e))) (call env x effect) := by
  intro s hs
  have hturn : Inv env c s₀ g (s.turn env x) := hs.1.turn fun u _ => hx u
  refine wp_call (fun hok => ?_) (fun e he => ?_) fun _ => hs.1.stops hx
  · have hon : On env c s₀ (g.note (x, .ok)) (s.turn env x) := by
      have hgo := hs.turn hturn (by rw [hok]; exact Answer.noConfusion)
      rw [hok] at hgo
      exact hgo
    obtain ⟨hinv, hlog⟩ := heffect _ hon.1
    exact hon.effect hinv hlog
  · have hgo := hs.turn hturn (by rw [he]; exact Answer.noConfusion)
    rw [he] at hgo
    exact hgo

theorem runs_made (hx : Harmless x) :
    Runs env c s₀ (On env c s₀ g) (fun _ => On env c s₀ (g.note (x, .ok)))
      (fun e => On env c s₀ (g.note (x, .raise e))) (call env x) :=
  runs_noted hx fun _ hs => ⟨hs, rfl⟩

/-- A call that leaves the stage as it is. -/
theorem runs_keeping {effect : World → World} (hx : Harmless x)
    (heffect : ∀ s, Inv env c s₀ g s → Inv env c s₀ g (effect s) ∧ (effect s).log = s.log) :
    Keeps env c s₀ (On env c s₀ g) (call env x effect) :=
  (runs_noted hx fun s hs => heffect s (hs.mono (g.le_note _))).raises
    fun _ _ hs => hs.mono (g.le_note _)

/-- A call that removes no container. -/
theorem runs_effect {effect : World → World} (hx : Harmless x)
    (heffect : ∀ s, Counted s → Effected (fun _ => False) s (effect s)) :
    Keeps env c s₀ (On env c s₀ g) (call env x effect) :=
  runs_keeping hx fun s hs => ⟨hs.harmless (heffect s hs.toCounted), (heffect s hs.toCounted).log⟩

theorem runs_call (hx : Harmless x) :
    Keeps env c s₀ (On env c s₀ g) (call env x) :=
  runs_effect hx fun _ _ => effected_elsewhere rfl rfl rfl (Nat.le_refl _) rfl

theorem runs_ask {f : World → α} (hx : Harmless x) :
    Runs env c s₀ (On env c s₀ g) (fun a s => On env c s₀ g s ∧ a = f s) (fun _ => On env c s₀ g)
      (ask env x f) :=
  (runs_call hx).bind fun _ => watched_read f fun _ hs => ⟨hs, rfl⟩

theorem at_call (hx : Harmless x) :
    Keeps env c s₀ (At env c s₀ g u P) (call env x) :=
  runs_at fun o ho => (runs_call hx).conseq (fun _ h => h) (fun _ _ h => ⟨o, ho, h⟩)
    fun _ _ h => ⟨o, ho, h⟩

/-! ### Objects -/

theorem at_assign {f : Obj → Obj} (hf : Bland f) (hfree : g.Free s₀ u)
    (hid : u ∈ g.owned → ∀ o, (f o).val.containerId = o.val.containerId) (hQ : ∀ o, P o → Q (f o)) :
    Runs env c s₀ (At env c s₀ g u P) (fun _ => At env c s₀ g u Q) E (assign u f) := by
  rintro s ⟨o, ho, hon⟩
  have hmem : s.mem u = o := hon.1.known_know
  have hinv : Inv env c s₀ ((g.know u o).know u (f (s.mem u))) (s.setMem u f) :=
    hon.1.assign hf (fun hu => (hon.1.owned u hu).assign (hid hu _)) hfree.seen hfree.done
  rw [g.know_know, hmem] at hinv
  exact ⟨f o, hQ o ho, hon.effect hinv rfl⟩

theorem runs_save :
    Runs env c s₀ (On env c s₀ (g.know u o))
      (fun _ s => ∃ old, On env c s₀
        ((g.know u (Obj.of o.val)).note (.save u (o.changed.merge o.val old), .ok)) s)
      (fun _ => On env c s₀ (g.know u o)) (save env u) := by
  intro s hs
  have hmem : s.mem u = o := hs.1.known_know
  have hx : ∀ row, Harmless (.save u row) := fun _ _ => rfl
  have hmerged : ∀ row, s.merged u row = o.changed.merge o.val row := by
    intro row
    unfold World.merged
    rw [hmem]
  refine wp_save (fun _ => hs) (fun row _ hok => ?_) (fun row e _ he => ?_)
    fun row _ _ => hs.1.stops (hx _)
  · have hgo := hs.turn (hs.1.turn fun v _ => hx (s.merged u row) v)
      (by rw [hok]; exact Answer.noConfusion)
    rw [hok, hmerged] at hgo
    rw [hmerged]
    refine ⟨row, hgo.effect ?_ rfl⟩
    have hsaved := hgo.1.saved row (hgo.1.known u o (g.know_self u o))
    exact hsaved.mono { Stage.Le.refl _ with
      known := fun v o' hv => by
        rw [← hv]
        exact congrFun (congrArg Stage.known (g.know_know u o (Obj.of o.val))) v }
  · have hgo := hs.turn (hs.1.turn fun v _ => hx (s.merged u row) v)
      (by rw [he]; exact Answer.noConfusion)
    exact hgo.mono (Stage.le_note _ _)

theorem at_save (hQ : ∀ o, P o → Q (Obj.of o.val)) :
    Runs env c s₀ (At env c s₀ g u P) (fun _ => At env c s₀ g u Q) (fun _ => At env c s₀ g u P)
      (save env u) := by
  refine runs_at fun o ho => runs_save.conseq (fun _ h => h) ?_ fun _ _ h => ⟨o, ho, h⟩
  rintro - s ⟨old, hon⟩
  exact ⟨Obj.of o.val, hQ o ho, hon.mono (Stage.le_note _ _)⟩

/-- What is read off a known object. -/
theorem at_obj {β : Type} {f : Record → β} {k : β → Prog World Exn α}
    (h : ∀ o, P o → Runs env c s₀ (On env c s₀ (g.know u o)) J E (k (f o.val))) :
    Runs env c s₀ (At env c s₀ g u P) J E (obj u f >>= k) :=
  runs_at fun o ho => watched_known (fun s hs => by rw [hs.1.known_know]) (h o ho)

theorem bland_setStatus (v : Status) : Bland (Obj.setStatus v) := ⟨fun _ => rfl, fun _ => rfl⟩
theorem bland_setStatusReason (v : Option String) : Bland (Obj.setStatusReason v) :=
  ⟨fun _ => rfl, fun _ => rfl⟩
theorem bland_setStatusDetail (v : Option Detail) : Bland (Obj.setStatusDetail v) :=
  ⟨fun _ => rfl, fun _ => rfl⟩
theorem bland_setTaskState (v : Option TaskState) : Bland (Obj.setTaskState v) :=
  ⟨fun _ => rfl, fun _ => rfl⟩
theorem bland_setContainerId (v : Option RuntimeId) : Bland (Obj.setContainerId v) :=
  ⟨fun _ => rfl, fun _ => rfl⟩
theorem bland_setAddresses (v : List (NetId × List Addr)) : Bland (Obj.setAddresses v) :=
  ⟨fun _ => rfl, fun _ => rfl⟩
theorem bland_setExitCode (v : Option Int) : Bland (Obj.setExitCode v) :=
  ⟨fun _ => rfl, fun _ => rfl⟩
theorem bland_setStartedAt (v : Option Nat) : Bland (Obj.setStartedAt v) :=
  ⟨fun _ => rfl, fun _ => rfl⟩
theorem bland_setProbeState (f : Obj → ProbeState) : Bland fun o => o.setProbeState (f o) :=
  ⟨fun _ => rfl, fun _ => rfl⟩

end Steps


/-! ## The runtime -/

/-- A stage with a container that was made for a member and started. -/
def Stage.started (g : Stage) (c : Capsule) (s₀ : World) (u : Uuid) (id : RuntimeId) (row : Record) :
    Stage :=
  { (g.tried c s₀ u).given c s₀ u id with
    owned := u :: g.owned
    made := (.startContainer id, .ok) :: (.save u row, .ok) :: g.made }

section Runtime

variable {env : Env} {c : Capsule} {s₀ s : World} {g : Stage} {u m : Uuid} {o : Obj}
  {P Q : Obj → Prop} {I J : World → Prop} {id : RuntimeId}

theorem runs_despiteRpc {p : Prog World Exn Unit} (hp : Runs env c s₀ I (fun _ => J) (fun _ => J) p) :
    Runs env c s₀ I (fun _ => J) (fun _ => J) (despiteRpc p) :=
  hp.tryExcept fun e => watched_ite (fun _ => watched_pure (J := fun _ => J) ())
    fun _ => watched_raise (E := fun _ => J) e

theorem runs_stopContainer (id : RuntimeId) :
    Keeps env c s₀ (On env c s₀ g) (stopContainer env id) := by
  refine runs_effect (fun _ => rfl) fun s _ => effected_map fun k _ => ?_
  split
  · exact ages_stopped k
  · exact Ages.refl k

theorem runs_startContainer (id : RuntimeId) :
    Runs env c s₀ (On env c s₀ g) (fun _ => On env c s₀ (g.note (.startContainer id, .ok)))
      (fun _ => On env c s₀ g) (startContainer env id) := by
  have hback : ∀ s, On env c s₀ (g.note (.startContainer id, .ok)) s → On env c s₀ g s :=
    fun s hs => hs.mono (g.le_note _)
  refine ((runs_made fun _ => rfl).raises fun e s hs => hs.mono (g.le_note _)).bind fun _ => ?_
  refine watched_look fun state => ?_
  cases state with
  | none => exact (watched_raise _).pre fun s hs => hback s hs.1
  | some state =>
      cases state with
      | created =>
          refine watched_modify fun s hs => hs.1.effect (hs.1.1.start hs.2 _ ?_ ?_) rfl
          · exact fun _ => rfl
          · exact fun _ => rfl
      | running => exact (watched_raise _).pre fun s hs => hback s hs.1
      | exited => exact (watched_raise _).pre fun s hs => hback s hs.1
      | unknown => exact (watched_raise _).pre fun s hs => hback s hs.1

theorem at_removeContainer (hnamed : (id, u) ∈ g.named)
    (hfree : g.Holds s₀ u → ∀ o, P o → o.val.containerId ≠ some id) :
    Keeps env c s₀ (At env c s₀ g u P) (removeContainer env id) := by
  refine runs_at fun o ho => ?_
  refine Watched.conseq (runs_keeping (fun _ => rfl) fun s hs => ⟨?_, rfl⟩) (fun _ h => h)
    (fun _ _ h => ⟨o, ho, h⟩) fun _ _ h => ⟨o, ho, h⟩
  refine hs.remove (hs.named _ hnamed).2 fun hu => ?_
  rw [hs.known_know]
  exact hfree hu o ho

theorem runs_stopIfAbandoned :
    Runs env c s₀ (On env c s₀ g) (fun _ s => On env c s₀ g s ∧ Wanted env c s₀ 0 s)
      (fun _ => On env c s₀ g) (stopIfAbandoned c.uuid) := by
  refine watched_look fun abandoned => watched_onlyIf (fun _ => ?_) fun hno s hs => ⟨hs.1, ?_⟩
  · exact (watched_raise _).pre fun s hs => hs.1
  · refine hs.1.1.wanted fun hab => hno ?_
    rw [← hs.2]
    exact List.contains_iff_mem.mpr hab

/-- A call in a run that no delete had come to. -/
theorem runs_wanted {n : Nat} {x : Call} (hx : Harmless x) :
    Runs env c s₀ (fun s => On env c s₀ g s ∧ Wanted env c s₀ n s)
      (fun _ s => On env c s₀ g s ∧ Wanted env c s₀ (n + 1) s) (fun _ => On env c s₀ g)
      (call env x) := by
  rintro s ⟨hs, hw⟩
  have hturn (hgo : env.answer s.tick x ≠ .halt) : On env c s₀ g (s.turn env x) :=
    (hs.turn (hs.1.turn fun v _ => hx v) hgo).mono (g.le_note _)
  refine wp_call (fun hok => ⟨hturn ?_, wanted_turn x hw⟩) (fun e he => hturn ?_)
    fun _ => hs.1.stops hx
  · rw [hok]
    exact Answer.noConfusion
  · rw [he]
    exact Answer.noConfusion


theorem Inv.untried {g' : Stage} (h : Inv env c s₀ (g'.tried c s₀ u) s) (hu : plain c s₀ u = false) :
    Inv env c s₀ g' s := by
  have hsame : g'.tried c s₀ u = g' := by
    unfold Stage.tried
    rw [if_neg (by rw [hu]; exact Bool.false_ne_true)]
  rw [hsame] at h
  exact h

theorem On.fell (h : On env c s₀ (g.know u o) s) (hu : g.known u = none) : Fell env c s₀ g u s :=
  ⟨h.fallen, fun _ => h.mono (g.le_know hu)⟩

/-- What is left of a stage at which a container was made for a member. -/
theorem Stage.le_given (g : Stage) {id : RuntimeId} (hu : plain c s₀ u = false) :
    g.Le ((g.tried c s₀ u).given c s₀ u id) := by
  have hnot : ¬ plain c s₀ u = true := by
    rw [hu]
    exact Bool.false_ne_true
  refine { Stage.Le.refl g with live := ?_, named := List.subset_cons_self .., tries := ?_ }
  · exact (if_neg hnot).symm
  · exact (if_neg hnot).symm

theorem Ready.know (h : Ready c s₀ g u) (v : Uuid) (o : Obj) : Ready c s₀ (g.know v o) u :=
  ⟨h.order, h.alone, h.policy⟩

theorem runs_createContainer (hr : Ready c s₀ g u) (pod : RuntimeId) (attempt : Nat) :
    Runs env c s₀ (fun s => On env c s₀ g s ∧ Wanted env c s₀ 1 s)
      (fun _ s => ∃ k, s.containers.head? = some k ∧ k.name = u ∧ s₀.nextId ≤ k.id ∧
        (∀ x ∈ g.named, x.1 ≠ k.id) ∧ On env c s₀ ((g.tried c s₀ u).given c s₀ u k.id) s)
      (fun _ s => Fallen env c s₀ s ∧ (plain c s₀ u = false → On env c s₀ g s))
      (createContainer env pod u attempt) := by
  rintro s ⟨hs, hw⟩
  have hinv : Inv env c s₀ (g.tried c s₀ u) (s.turn env (.createContainer pod u attempt)) :=
    hs.1.turn_create pod u attempt
  refine wp_call (fun hok => ?_) (fun e he => ?_) fun _ => hs.1.stops_create hr hw pod attempt
  · have hgo := (hs.turn hinv (by rw [hok]; exact Answer.noConfusion)).mono (Stage.le_note _ _)
    refine ⟨newContainer pod u attempt (s.turn env (.createContainer pod u attempt)), rfl, rfl,
      hinv.next, fun x hx => Nat.ne_of_lt (hinv.named x hx).1,
      hgo.effect (hgo.1.create pod attempt fun hplain => ?_) rfl⟩
    exact hr.alone hplain
  · have hgo := (hs.turn hinv (by rw [he]; exact Answer.noConfusion)).mono (Stage.le_note _ _)
    exact ⟨hgo.fallen, fun hu => ⟨hgo.1.untried hu, hgo.2⟩⟩

/-- The new container comes on the record. -/
theorem runs_adopt {k : CriContainer} (hfree : g.Free s₀ u) (hname : k.name = u)
    (hnew : s₀.nextId ≤ k.id) {E : Exn → World → Prop} :
    Runs env c s₀ (fun s => On env c s₀ (g.know u o) s ∧ k ∈ s.containers)
      (fun _ => On env c s₀ ({ g with owned := u :: g.owned }.know u (o.setContainerId (some k.id))))
      E (assign u (Obj.setContainerId (some k.id))) := by
  rintro s ⟨hs, hk⟩
  have howns : Owns s₀ u (s.setMem u (Obj.setContainerId (some k.id))) := by
    refine ⟨k, hk, ?_, hname, hnew⟩
    rw [World.setMem_mem_self]
    rfl
  have hmem : s.mem u = o := hs.1.known_know
  have hinv : Inv env c s₀ ((g.know u o).know u ((s.mem u).setContainerId (some k.id)))
      (s.setMem u (Obj.setContainerId (some k.id))) :=
    hs.1.assign (bland_setContainerId _) (fun _ => howns) hfree.seen hfree.done
  rw [g.know_know, hmem] at hinv
  refine hs.effect { hinv with owned := ?_ } rfl
  intro v hv
  rcases List.mem_cons.mp hv with rfl | hv
  · exact howns
  · exact hinv.owned v hv

end Runtime

/-! ## Members -/

section Members

variable {env : Env} {c : Capsule} {s₀ s : World} {g : Stage} {u m : Uuid} {o : Obj}
  {P Q : Obj → Prop} {id : RuntimeId}

/-- Whatever is read off the object. -/
theorem at_any {α β : Type} {f : Record → β} {k : β → Prog World Exn α} {J : α → World → Prop}
    {E : Exn → World → Prop} (h : ∀ b, Runs env c s₀ (At env c s₀ g u P) J E (k b)) :
    Runs env c s₀ (At env c s₀ g u P) J E (obj u f >>= k) :=
  watched_look fun b => (h b).pre fun _ hs => hs.1

/-- What a container for a member that was made and started comes to. -/
def MadeFor (env : Env) (c : Capsule) (s₀ : World) (g : Stage) (u : Uuid) (P : Obj → Prop)
    (s : World) : Prop :=
  ∃ id row o, P o ∧ s₀.nextId ≤ id ∧ row.containerId = some id ∧ (∀ x ∈ g.named, x.1 ≠ id) ∧
    On env c s₀ ((g.started c s₀ u id row).know u (Obj.of (o.setContainerId (some id)).val)) s

theorem runs_createContainerIn (hr : Ready c s₀ g u) (hfree : g.Free s₀ u) (hu : g.known u = none)
    (attempt : Option Nat) :
    Runs env c s₀ (At env c s₀ g u P) (fun _ => MadeFor env c s₀ g u P)
      (fun _ => Fell env c s₀ g u) (createContainerIn env c.uuid u true attempt) := by
  have hfell : ∀ o s, On env c s₀ (g.know u o) s → Fell env c s₀ g u s := fun o s hs => hs.fell hu
  refine runs_at fun o ho => ?_
  refine ((runs_call fun _ => rfl).raises fun _ s hs => hfell o s hs).bind fun _ => ?_
  refine (runs_stopIfAbandoned.raises fun _ s hs => hfell o s hs).bind fun _ => ?_
  refine ((runs_wanted fun _ => rfl).raises fun _ s hs => hfell o s hs).bind fun _ => ?_
  refine watched_look fun pod => watched_look fun tally => ?_
  refine Watched.bind (((runs_createContainer (hr.know u o) pod _).pre fun s hs => hs.1.1).raises
    fun _ s hs => ⟨hs.1, fun hplain => (hs.2 hplain).mono (g.le_know hu)⟩) fun _ => ?_
  refine watched_exists fun k => ?_
  refine watched_known (a := some k.id) (fun s hs => by rw [hs.1]; rfl) ?_
  intro s hs
  obtain ⟨hhead, hname, hnew, hother, hon⟩ := hs
  have hfell' : ∀ o' s', On env c s₀ ({ (g.tried c s₀ u).given c s₀ u k.id with
      owned := u :: g.owned }.know u o') s' → Fell env c s₀ g u s' := by
    refine fun o' s' hs' => ⟨hs'.fallen, fun hplain => hs'.mono ?_⟩
    have hle : g.Le ((g.tried c s₀ u).given c s₀ u k.id) := g.le_given hplain
    refine { hle with owned := List.subset_cons_self .., known := fun v o'' hv => ?_ }
    exact (Stage.le_know { (g.tried c s₀ u).given c s₀ u k.id with owned := u :: g.owned } hu).known
      v o'' hv
  have hrest : Runs env c s₀ (fun s => On env c s₀ (((g.tried c s₀ u).given c s₀ u k.id).know u o) s ∧
      k ∈ s.containers) (fun _ => MadeFor env c s₀ g u P) (fun _ => Fell env c s₀ g u) (do
        assign u (Obj.setContainerId (some k.id))
        save env u
        onlyIf (true = true) (startContainer env ((some k.id).getD 0))) := by
    refine Watched.bind (runs_adopt (g := (g.tried c s₀ u).given c s₀ u k.id)
      ⟨hfree.seen, hfree.done⟩ hname hnew) fun _ => ?_
    refine (runs_save.raises fun _ s hs => hfell' _ s hs).bind fun _ => ?_
    refine watched_exists fun old => watched_onlyIf (fun _ => ?_) fun h => absurd rfl h
    refine (runs_startContainer k.id).conseq (fun _ h => h) (fun _ s hs => ?_) fun _ s hs => ?_
    · exact ⟨k.id, _, o, ho, hnew, rfl, hother, hs.mono (Stage.Le.refl _)⟩
    · exact hfell' _ s (hs.mono (Stage.le_note _ _))
  refine hrest s ⟨hon.mono (Stage.Le.refl _), List.mem_of_mem_head? ?_⟩
  rw [hhead]
  rfl

/-- The runtime is asked about a container, and the object is as it was. -/
theorem at_containerStatus (ho : P o) (id : RuntimeId) :
    Runs env c s₀ (On env c s₀ (g.know u o)) (fun _ => At env c s₀ g u P) (fun _ => At env c s₀ g u P)
      (containerStatus env id) := by
  have hat : ∀ s, On env c s₀ (g.know u o) s → At env c s₀ g u P s := fun s hs => ⟨o, ho, hs⟩
  refine ((runs_ask fun _ => rfl).raises fun _ s hs => hat s hs).bind fun found => ?_
  cases found with
  | none => exact (watched_raise _).pre fun s hs => hat s hs.1
  | some k => exact (watched_pure k).pre fun s hs => hat s hs.1

theorem at_recordStart (hP : ∀ o v, P o → P (o.setStartedAt v)) (hfree : g.Free s₀ u) :
    Keeps env c s₀ (At env c s₀ g u P) (recordStart env u) := by
  refine runs_despiteRpc (at_obj fun o ho => ?_)
  refine (at_containerStatus ho _).bind fun k => watched_onlyIf (fun _ => ?_) fun _ s hs => hs
  exact at_assign (bland_setStartedAt _) hfree (fun _ _ => rfl) fun o ho => hP o _ ho

theorem at_recordRunning (hfree : g.Free s₀ u) (hrun : ∀ o, P o → Q (o.setStatus .running))
    (hstart : ∀ o v, Q o → Q (o.setStartedAt v)) (hsaved : ∀ o, Q o → Q (Obj.of o.val)) :
    Runs env c s₀ (At env c s₀ g u P) (fun _ => At env c s₀ g u Q) (fun _ => At env c s₀ g u Q)
      (recordRunning env u) :=
  (at_assign (bland_setStatus _) hfree (fun _ _ => rfl) hrun).bind fun _ =>
    (at_recordStart hstart hfree).bind fun _ => at_save hsaved

theorem at_recordNewRun (hP : Shallow P) (hsaved : ∀ o, P o → P (Obj.of o.val)) (hfree : g.Free s₀ u) :
    Keeps env c s₀ (At env c s₀ g u P) (recordNewRun env u) :=
  (at_assign (bland_setStatus _) hfree (fun _ _ => rfl) fun o ho => hP.status o _ ho).bind fun _ =>
    (at_assign (bland_setStatusDetail _) hfree (fun _ _ => rfl) fun o ho => hP.statusDetail o _ ho).bind
      fun _ => (at_recordStart hP.startedAt hfree).bind fun _ => at_save hsaved

theorem at_recordExit (hP : Shallow P) (hfree : g.Free s₀ u) :
    Keeps env c s₀ (At env c s₀ g u P) (recordExit env u) := by
  refine at_obj fun o ho => ?_
  have hat : ∀ s, On env c s₀ (g.know u o) s → At env c s₀ g u P s := fun s hs => ⟨o, ho, hs⟩
  refine watched_onlyIf (fun _ => ?_) fun _ s hs => hat s hs
  refine runs_despiteRpc ((at_obj fun o ho => ?_).pre hat)
  refine (at_containerStatus ho _).bind fun k => ?_
  refine (at_assign (bland_setStatusDetail _) hfree (fun _ _ => rfl) fun o ho =>
    hP.statusDetail o _ ho).bind fun _ => ?_
  refine (at_assign (bland_setExitCode _) hfree (fun _ _ => rfl) fun o ho =>
    hP.exitCode o _ ho).bind fun _ => ?_
  refine watched_onlyIf (fun _ => ?_) fun _ s hs => hs
  exact at_assign (bland_setStartedAt _) hfree (fun _ _ => rfl) fun o ho => hP.startedAt o _ ho

theorem at_populateRunning (hP : Shallow P) (hfree : g.Free s₀ u) :
    Keeps env c s₀ (At env c s₀ g u P) (populateRunning env u) := by
  refine (at_assign (bland_setStatus _) hfree (fun _ _ => rfl) fun o ho => hP.status o _ ho).bind fun _ => ?_
  refine at_any fun r => ?_
  refine Watched.bind (J := fun _ => At env c s₀ g u P) (watched_onlyIf (fun _ => ?_) fun _ s hs => hs)
    fun _ => watched_onlyIf (fun _ => at_recordStart hP.startedAt hfree) fun _ s hs => hs
  exact at_assign (bland_setStatusDetail _) hfree (fun _ _ => rfl) fun o ho => hP.statusDetail o _ ho

theorem at_pausedNow (id : RuntimeId) :
    Keeps env c s₀ (At env c s₀ g u P) (pausedNow env u id) := by
  refine at_any fun status => ?_
  refine watched_ite (fun _ => ?_) fun _ => watched_pure (J := fun _ => At env c s₀ g u P) false
  refine Watched.tryExcept (E := fun _ => At env c s₀ g u P) ?_ fun e => ?_
  · exact (at_call fun _ => rfl).bind fun _ => watched_read _ fun _ hs => hs
  · exact watched_ite (fun _ => watched_pure (J := fun _ => At env c s₀ g u P) true)
      fun _ => watched_raise (E := fun _ => At env c s₀ g u P) e

theorem at_populateContainerState (hP : Shallow P) (hfree : g.Free s₀ u) (k : CriContainer) :
    Keeps env c s₀ (At env c s₀ g u P) (populateContainerState env u k) := by
  have hstatus (v : Status) : Keeps env c s₀ (At env c s₀ g u P) (assign u (Obj.setStatus v)) :=
    at_assign (bland_setStatus v) hfree (fun _ _ => rfl) fun o ho => hP.status o v ho
  unfold populateContainerState
  split
  · exact hstatus _
  · exact (at_pausedNow k.id).bind fun _ =>
      watched_onlyIf (fun _ => at_populateRunning hP hfree) fun _ s hs => hs
  · exact (hstatus _).bind fun _ => at_recordExit hP hfree
  · exact hstatus _

theorem at_showContainer (hP : Shallow P) (hfree : g.Free s₀ u) :
    Keeps env c s₀ (At env c s₀ g u P) (showContainer env u) := by
  refine at_any fun id => ?_
  cases id with
  | none => exact watched_pure (J := fun _ => At env c s₀ g u P) ()
  | some id =>
      refine Watched.bind (J := fun _ => At env c s₀ g u P) ?_ fun found => ?_
      · exact (at_call fun _ => rfl).bind fun _ => watched_read _ fun _ hs => hs
      · cases found with
        | none => exact watched_raise (E := fun _ => At env c s₀ g u P) _
        | some k => exact at_populateContainerState hP hfree k

end Members

/-! ## Sidecars that run beside -/

/-- A sidecar that is done, and may be looked after. -/
structure Tended (c : Capsule) (s₀ : World) (g : Stage) (u : Uuid) : Prop where
  init : u ∈ c.initContainers
  sidecar : (s₀.mem u).val.isSidecar = true
  order : ∀ i ∈ before c u, i ∈ g.done
  owned : u ∈ g.owned
  seen : u ∉ g.seen
  known : g.known u = none

/-- A stage that knows whose container an id is. -/
def Stage.name (g : Stage) (id : RuntimeId) (u : Uuid) : Stage := { g with named := (id, u) :: g.named }

theorem Stage.le_name (g : Stage) (id : RuntimeId) (u : Uuid) : g.Le (g.name id u) :=
  { Stage.Le.refl g with named := List.subset_cons_self .. }

section Tending

variable {env : Env} {c : Capsule} {s₀ s : World} {g : Stage} {u m : Uuid} {o : Obj}
  {P Q : Obj → Prop} {id : RuntimeId} {sidecars : List Uuid}

theorem Tended.free (h : Tended c s₀ g u) : g.Free s₀ u := ⟨h.seen, fun _ => h.sidecar⟩

theorem plain_of_sidecar (h : (s₀.mem u).val.isSidecar = true) : plain c s₀ u = false := by
  unfold plain
  rw [h]
  exact Bool.and_false _

theorem Tended.know (h : Tended c s₀ g u) (hne : u ≠ m) (o : Obj) : Tended c s₀ (g.know m o) u :=
  { h with known := (g.know_of_ne o hne).trans h.known }

theorem not_main (h : u ∈ c.initContainers) : u ∉ c.containers :=
  fun hmain => List.disjoint_of_nodup_append (List.nodup_cons.mp c.distinct).2 h hmain

theorem Tended.ready (h : Tended c s₀ g u) : Ready c s₀ g u where
  order := h.order
  alone hplain := absurd hplain (by rw [plain_of_sidecar h.sidecar]; exact Bool.false_ne_true)
  policy hmain := absurd hmain (not_main h.init)

theorem Stage.started_le (g : Stage) {row : Record} (hu : plain c s₀ u = false) :
    g.Le (g.started c s₀ u id row) := by
  have hle : g.Le ((g.tried c s₀ u).given c s₀ u id) := g.le_given hu
  exact { hle with
    owned := List.subset_cons_self ..
    made := fun _ hx => List.mem_cons_of_mem _ (List.mem_cons_of_mem _ hx) }

/-- The container on the record of a member that owns one bears its name. -/
theorem On.name (h : On env c s₀ (g.know u o) s) (hu : u ∈ g.owned) :
    ∃ id, o.val.containerId = some id ∧
      On env c s₀ ((g.name id u).know u o) s := by
  obtain ⟨k, hk, hid, hname, -⟩ := h.1.owned u hu
  rw [h.1.known_know] at hid
  refine ⟨k.id, hid, { h.1 with named := fun x hx => ?_ }, h.2⟩
  rcases List.mem_cons.mp hx with rfl | hx
  · refine ⟨h.1.ids k hk, fun k' hk' hsame => ?_⟩
    rw [h.1.toCounted.eq_of_id hk' hk hsame, hname]
  · exact h.1.named x hx

theorem at_bumpTally {E : Exn → World → Prop} (hfree : g.Free s₀ u)
    (hQ : ∀ o, P o → Q (o.setProbeState
      { o.val.healthcheck.state with restarts := some (o.val.restartCount + 1) })) :
    Runs env c s₀ (At env c s₀ g u P) (fun _ => At env c s₀ g u Q) E (bumpTally u) :=
  at_assign (bland_setProbeState fun o =>
    { o.val.healthcheck.state with restarts := some (o.val.restartCount + 1) }) hfree
    (fun _ _ => rfl) hQ

theorem at_resetProbes {E : Exn → World → Prop} (hfree : g.Free s₀ u) (more : Nat)
    (hQ : ∀ o, P o → Q (o.setProbeState { restarts := some (o.val.restartCount + more) })) :
    Runs env c s₀ (At env c s₀ g u P) (fun _ => At env c s₀ g u Q) E (resetProbes u more) :=
  at_assign (bland_setProbeState fun o => { restarts := some (o.val.restartCount + more) }) hfree
    (fun _ _ => rfl) hQ

theorem runs_restartContainer (h : Tended c s₀ g u) :
    Keeps env c s₀ (On env c s₀ g) (restartContainer env c.uuid u) := by
  have hplain : plain c s₀ u = false := plain_of_sidecar h.sidecar
  refine runs_know (at_obj fun o _ => ?_)
  refine Watched.pre (I := fun s => ∃ old, o.val.containerId = some old ∧
    At env c s₀ (g.name old u) u (· = o) s) ?_ fun s hs => ?_
  swap
  · obtain ⟨old, hold, hon⟩ := hs.name h.owned
    exact ⟨old, hold, o, rfl, hon⟩
  refine watched_exists fun old => watched_assuming fun hold => ?_
  rw [hold]
  have hfree : (g.name old u).Free s₀ u := ⟨h.free.seen, h.free.done⟩
  have hle : g.Le (g.name old u) := g.le_name old u
  refine Watched.bind (at_bumpTally (Q := fun _ => True) hfree fun _ _ => trivial) fun _ => ?_
  refine Watched.tryExcept (E := fun _ => On env c s₀ g) ?_
    fun _ => watched_pure (J := fun _ => On env c s₀ g) false
  have hfell : ∀ s, Fell env c s₀ (g.name old u) u s → On env c s₀ g s :=
    fun s hs => (hs.2 hplain).mono hle
  have hback : ∀ s, At env c s₀ (g.name old u) u (fun _ => True) s →
      On env c s₀ g s := fun s hs => (hs.forget h.known).mono hle
  refine Watched.bind (J := fun _ => At env c s₀ (g.name old u) u fun _ => True)
    ((runs_despiteRpc (runs_at fun o _ => ?_)).raises fun _ s hs => hback s hs) fun _ => ?_
  · exact (runs_stopContainer old).conseq (fun _ h => h) (fun _ _ hs => ⟨o, trivial, hs⟩)
      fun _ _ hs => ⟨o, trivial, hs⟩
  refine ((at_call fun _ => rfl).raises fun _ s hs => hback s hs).bind fun _ => ?_
  refine ((runs_createContainerIn (g := g.name old u) ⟨h.ready.order, h.ready.alone, h.ready.policy⟩ hfree h.known
    none).raises fun _ s hs => hfell s hs).bind fun _ => ?_
  refine watched_exists fun id => watched_exists fun row => watched_exists fun o => ?_
  refine Watched.pre (I := fun s => old ≠ id ∧ At env c s₀
    ((g.name old u).started c s₀ u id row) u
      (fun o => o.val.containerId = some id) s) ?_ fun s hs => ?_
  swap
  · exact ⟨hs.2.2.2.1 (old, u) (List.mem_cons_self ..), _, rfl, hs.2.2.2.2⟩
  refine watched_assuming fun hne => ?_
  have hback' : ∀ s, At env c s₀ ((g.name old u).started c s₀ u id row) u
      (fun o => o.val.containerId = some id) s → On env c s₀ g s := by
    intro s hs
    exact ((hs.forget h.known).mono (Stage.started_le _ hplain)).mono hle
  refine Watched.bind (J := fun _ => On env c s₀ g) ?_ fun _ => watched_pure (J := fun _ => On env c s₀ g) true
  refine (runs_despiteRpc (at_removeContainer (u := u) ?_ fun _ o ho => ?_)).conseq (fun _ h => h)
    (fun _ s hs => hback' s hs) fun _ s hs => hback' s hs
  · exact List.mem_cons_of_mem _ (List.mem_cons_self ..)
  · rw [ho]
    exact fun hid => hne (Option.some.inj hid).symm

theorem runs_restartSidecar (h : Tended c s₀ g u) :
    Keeps env c s₀ (On env c s₀ g) (restartSidecar env c.uuid u) := by
  have hback : ∀ s, At env c s₀ g u (fun _ => True) s → On env c s₀ g s := fun s hs => hs.forget h.known
  have hshallow : Shallow fun _ => True :=
    ⟨fun _ _ _ => trivial, fun _ _ _ => trivial, fun _ _ _ => trivial, fun _ _ _ => trivial⟩
  refine (runs_restartContainer h).bind fun done => watched_look fun now => ?_
  refine watched_onlyIf (fun _ => Watched.pre (runs_know (u := u) ?_) fun s hs => hs.1) fun _ s hs => hs.1
  refine Watched.bind (at_assign (Q := fun _ => True) (bland_setProbeState fun o =>
    { restarts := some o.val.restartCount, lastRestart := some now }) h.free (fun _ _ => rfl)
    fun _ _ => trivial) fun _ => ?_
  exact (at_recordNewRun hshallow (fun _ _ => trivial) h.free).conseq (fun _ h => h)
    (fun _ s hs => hback s hs) fun _ s hs => hback s hs

theorem runs_tendSidecars (h : ∀ u ∈ sidecars, Tended c s₀ g u) {E : Exn → World → Prop} :
    Runs env c s₀ (On env c s₀ g) (fun _ => On env c s₀ g) E (tendSidecars env c.uuid sidecars) := by
  refine watched_forEach sidecars fun u hu => Watched.swallow ?_
  have hback : ∀ s, At env c s₀ g u (fun _ => True) s → On env c s₀ g s :=
    fun s hs => hs.forget (h u hu).known
  have hshallow : Shallow fun _ => True :=
    ⟨fun _ _ _ => trivial, fun _ _ _ => trivial, fun _ _ _ => trivial, fun _ _ _ => trivial⟩
  refine Watched.bind (J := fun _ => On env c s₀ g) (runs_know (u := u) ?_) fun _ => ?_
  · exact (at_showContainer hshallow (h u hu).free).conseq (fun _ h => h)
      (fun _ s hs => hback s hs) fun _ s hs => hback s hs
  · refine watched_look fun r => watched_look fun now => ?_
    exact watched_onlyIf (fun _ => (runs_restartSidecar (h u hu)).pre fun s hs => hs.1.1)
      fun _ s hs => hs.1.1

/-- The record of the capsule, which no stage says anything of. -/
structure Beside (c : Capsule) (g : Stage) : Prop where
  done : c.uuid ∉ g.done
  seen : c.uuid ∉ g.seen
  known : g.known c.uuid = none

theorem Beside.free (h : Beside c g) : g.Free s₀ c.uuid := ⟨h.seen, fun hd => absurd hd h.done⟩

/-- An assignment to the record of the capsule, which is saved. -/
theorem runs_record {f : Obj → Obj} (h : Beside c g) (hf : Bland f)
    (hid : ∀ o, (f o).val.containerId = o.val.containerId) :
    Keeps env c s₀ (On env c s₀ g) (assign c.uuid f >>= fun _ => save env c.uuid) := by
  have hback : ∀ s, At env c s₀ g c.uuid (fun _ => True) s → On env c s₀ g s :=
    fun s hs => hs.forget h.known
  refine runs_know (u := c.uuid) (Watched.bind (at_assign (Q := fun _ => True) hf h.free (fun _ => hid)
    fun _ _ => trivial) fun _ => ?_)
  exact (at_save (P := fun _ => True) fun _ _ => trivial).conseq (fun _ hs => hs)
    (fun _ s hs => hback s hs) fun _ s hs => hback s hs

/-- A word on the record of the capsule, which is saved. -/
theorem runs_say {f : Obj → Obj} (h : Beside c g) (hf : Bland f)
    (hid : ∀ o, (f o).val.containerId = o.val.containerId) {α : Type} {k : Prog World Exn α}
    {J : α → World → Prop} {E : Exn → World → Prop} (hE : ∀ e s, On env c s₀ g s → E e s)
    (hk : Runs env c s₀ (On env c s₀ g) J E k) :
    Runs env c s₀ (On env c s₀ g) J E (assign c.uuid f >>= fun _ => save env c.uuid >>= fun _ => k) := by
  have hback : ∀ s, At env c s₀ g c.uuid (fun _ => True) s → On env c s₀ g s :=
    fun s hs => hs.forget h.known
  refine runs_know (u := c.uuid) (Watched.bind (at_assign (Q := fun _ => True) hf h.free (fun _ => hid)
    fun _ _ => trivial) fun _ => ?_)
  refine Watched.bind ((at_save (Q := fun _ => True) fun _ _ => trivial).raises
    fun e s hs => hE e s (hback s hs)) fun _ => ?_
  exact hk.pre hback

theorem runs_stop : Keeps env c s₀ (On env c s₀ g)
    (stopIfAbandoned c.uuid) := runs_stopIfAbandoned.post fun _ _ hs => hs.1

theorem runs_waitToRetry (hc : Beside c g) (h : ∀ u ∈ sidecars, Tended c s₀ g u) (delay : Nat)
    (why : String) :
    Keeps env c s₀ (On env c s₀ g) (waitToRetry env c.uuid sidecars delay why) := by
  refine runs_say hc (bland_setStatusReason _) (fun _ => rfl) (fun _ _ hs => hs) ?_
  refine Watched.bind (J := fun _ => On env c s₀ g) ?_ fun _ => runs_stop
  exact watched_forEach _ fun _ _ => runs_stop.bind fun _ => runs_tendSidecars h

theorem runs_removeQuietly {p : Obj → Prop} (hnamed : (id, u) ∈ g.named)
    (hfree : g.Holds s₀ u → ∀ o, p o → o.val.containerId ≠ some id) :
    Keeps env c s₀ (At env c s₀ g u p) (removeQuietly env id) :=
  (at_removeContainer hnamed hfree).tryExcept fun e =>
    watched_ite (fun _ => watched_pure (J := fun _ => At env c s₀ g u p) ())
      fun _ => watched_raise (E := fun _ => At env c s₀ g u p) e

/-- The container of a member that no one holds on to is cleared away. -/
theorem at_discardForRetry (hfree : g.Free s₀ u) (hnamed : (id, u) ∈ g.named)
    (hP : ∀ o, P o → o.val.containerId = some id) (hholds : ¬ g.Holds s₀ u)
    (hQ : ∀ o, P o → Q (o.setProbeState { restarts := some (o.val.restartCount + 1) })) :
    Runs env c s₀ (At env c s₀ g u P) (fun _ => At env c s₀ g u Q) (fun _ => At env c s₀ g u Q)
      (discardForRetry env u) := by
  refine Watched.bind (at_resetProbes (Q := fun o => Q o ∧ o.val.containerId = some id) hfree 1
    fun o ho => ⟨hQ o ho, hP o ho⟩) fun _ => ?_
  have hback : ∀ s, At env c s₀ g u (fun o => Q o ∧ o.val.containerId = some id) s →
      At env c s₀ g u Q s := fun s hs => hs.weaken fun o ho => ho.1
  refine (runs_despiteRpc (at_obj fun o ho => ?_)).conseq (fun _ h => h)
    (fun _ s hs => hback s hs) fun _ s hs => hback s hs
  rw [ho.2]
  refine Watched.pre (I := At env c s₀ g u fun o => Q o ∧ o.val.containerId = some id) ?_
    fun s hs => ⟨o, ho, hs⟩
  refine Watched.bind (J := fun _ => At env c s₀ g u fun o => Q o ∧ o.val.containerId = some id)
    (runs_at fun o ho => ?_) fun _ => runs_removeQuietly hnamed fun h => absurd h hholds
  exact (runs_stopContainer _).conseq (fun _ h => h) (fun _ s hs => ⟨o, ho, hs⟩)
    fun _ s hs => ⟨o, ho, hs⟩

end Tending

/-! ## A plain init container -/

/-- The object of an init container that is waited for. -/
def Waiting (id : RuntimeId) (o : Obj) : Prop :=
  o.val.containerId = some id ∧ o.val.statusDetail = none ∧ o.val.status = .running

/-- A stage at which the container of a member was seen stopped. -/
def Stage.saw (g : Stage) (u : Uuid) : Stage := { g with live := none, seen := u :: g.seen }

/-- A stage at which a container has exited. -/
def Stage.ended (g : Stage) (id : RuntimeId) : Stage := { g with dead := id :: g.dead }

/-- The container of a member was seen stopped. -/
def SeenAt (env : Env) (c : Capsule) (s₀ : World) (g : Stage) (u : Uuid) (s : World) : Prop :=
  ∃ o, On env c s₀ ((g.saw u).know u o) s

section Waiting

variable {env : Env} {c : Capsule} {s₀ s : World} {g : Stage} {u m : Uuid} {o : Obj}
  {P Q : Obj → Prop} {id : RuntimeId} {sidecars : List Uuid}

theorem SeenAt.fallen (h : SeenAt env c s₀ g u s) : Fallen env c s₀ s := by
  obtain ⟨o, ho⟩ := h
  exact ho.fallen

theorem setMem_setMem (f f' : Obj → Obj) :
    (s.setMem u f).setMem u f' = s.setMem u fun o => f' (f o) := by
  simp only [World.setMem, Function.update_self, Function.update_idem]

/-- What a look has to come to for the container to be seen stopped. -/
theorem On.saw (h : On env c s₀ ((g.ended id).know u o) s) (hu : u ∈ g.owned)
    (hlive : g.live = some id) (hid : o.val.containerId = some id) (hstatus : o.val.status = .stopped)
    (hdetail : (∃ k ∈ s.containers, k.id = id ∧ o.val.statusDetail = some (.exit k.exitCode)) ∨
      o.val.statusDetail = none ∧ ∃ e, Made s₀ (.containerStatus id) (.raise e) s) :
    SeenAt env c s₀ g u s := by
  have hmem : s.mem u = o := h.1.known_know
  have hover := (h.1.dead id (List.mem_cons_self ..)).2
  obtain ⟨k, hk, hkid, hname, hnew⟩ := h.1.owned u hu
  rw [hmem, hid] at hkid
  have hkid := Option.some.inj hkid
  subst hkid
  refine ⟨o, { h.1 with seen := fun v hv => ?_, live := fun k' hk' hlive' => ?_, dead := ?_ }, h.2⟩
  · rcases List.mem_cons.mp hv with rfl | hv
    · refine ⟨k, hk, hname, hnew, hover k hk rfl, by rw [hmem, hid], by rw [hmem, hstatus], ?_⟩
      rw [hmem]
      refine hdetail.imp (fun hread => ?_) id
      obtain ⟨k', hk', hsame, hcode⟩ := hread
      rw [hcode, h.1.toCounted.eq_of_id hk' hk hsame]
    · exact h.1.seen v hv
  · have hsome : g.live = some k'.id := h.1.live k' hk' hlive'
    rw [hlive] at hsome
    have hsame : k.id = k'.id := Option.some.inj hsome
    exact absurd (hover k' hk' hsame.symm) hlive'.2.2
  · exact fun v hv => h.1.dead v (List.mem_cons_of_mem _ hv)

/-- The code of a container that has exited is read, or cannot be read. -/
theorem runs_recordExit (hfree : g.Free s₀ u) (hu : u ∈ g.owned) (hlive : g.live = some id)
    (hid : o.val.containerId = some id) (hstatus : o.val.status = .stopped)
    (hdetail : o.val.statusDetail = none) :
    Runs env c s₀ (On env c s₀ ((g.ended id).know u o)) (fun _ => SeenAt env c s₀ g u)
      (fun e s => e.isRpc = false ∧ Fallen env c s₀ s) (recordExit env u) := by
  refine watched_known (a := none) (fun s hs => by rw [hs.1.known_know]; exact hdetail) ?_
  refine watched_onlyIf (fun _ => ?_) fun h => absurd rfl h
  refine Watched.tryExcept (E := fun e s => (e.isRpc = true → SeenAt env c s₀ g u s) ∧
    Fallen env c s₀ s) ?_ fun e => ?_
  swap
  · refine watched_ite (fun he s hs => hs.1 he) fun he s hs => ⟨?_, hs.2⟩
    exact Bool.eq_false_iff.mpr he
  refine watched_known (a := id) (fun s hs => by simp only [hs.1.known_know, hid, Option.getD_some]) ?_
  refine Watched.bind (J := fun k s => On env c s₀ ((g.ended id).know u o) s ∧
    k ∈ s.containers ∧ k.id = id) ?_ fun k => ?_
  · -- the call that reads the code
    refine Watched.bind (J := fun found s => On env c s₀ ((g.ended id).know u o) s ∧
      found = find id s) (Watched.bind ((runs_made fun _ => rfl).raises fun e s hs => ⟨fun _ => ?_,
        hs.fallen⟩) fun _ => watched_read _ fun s hs => ⟨hs.mono (Stage.le_note _ _), rfl⟩)
      fun found => ?_
    · have hon : On env c s₀ ((g.ended id).know u o) s := hs.mono (Stage.le_note _ _)
      exact hon.saw hu hlive hid hstatus (.inr ⟨hdetail, e, hs.1.made _ (List.mem_cons_self ..)⟩)
    · cases found with
      | some k => exact (watched_pure k).pre fun s hs => ⟨hs.1, mem_of_find hs.2.symm⟩
      | none =>
          refine Watched.pre (I := fun _ => False) (fun s hs => hs.elim) fun s hs => ?_
          obtain ⟨k, hk, hkid, -⟩ := hs.1.1.owned u hu
          rw [hs.1.1.known_know, hid] at hkid
          have hnone := List.find?_eq_none.mp hs.2.symm k hk
          simp [Option.some.inj hkid] at hnone
  · -- what was read comes on the record
    rintro s ⟨hon, hk, hkid⟩
    have hfree' : (g.ended id).Free s₀ u := ⟨hfree.seen, hfree.done⟩
    have hend : ∀ f : Obj → Obj, Bland f → (f o).val.containerId = o.val.containerId →
        (f o).val.status = o.val.status → (f o).val.statusDetail = some (.exit k.exitCode) →
        SeenAt env c s₀ g u (s.setMem u f) := by
      intro f hf hfid hfstatus hfdetail
      have hmem : s.mem u = o := hon.1.known_know
      have hinv : Inv env c s₀ (((g.ended id).know u o).know u (f (s.mem u))) (s.setMem u f) :=
        hon.1.assign hf (fun hv => (hon.1.owned u hv).assign (by rw [hmem, hfid])) hfree'.seen
          hfree'.done
      rw [Stage.know_know, hmem] at hinv
      refine (hon.effect hinv rfl).saw hu hlive (hfid.trans hid) (hfstatus.trans hstatus) (.inl ?_)
      exact ⟨k, hk, hkid, hfdetail⟩
    rw [wp_bind, wp_assign, seqPost_ok, wp_bind, wp_assign, seqPost_ok, setMem_setMem]
    refine wp_onlyIf (fun _ => ?_) fun _ => ?_
    · rw [wp_assign, setMem_setMem]
      exact hend (fun o => ((o.setStatusDetail _).setExitCode _).setStartedAt _)
        ⟨fun _ => rfl, fun _ => rfl⟩ rfl rfl rfl
    · exact hend (fun o => (o.setStatusDetail _).setExitCode _) ⟨fun _ => rfl, fun _ => rfl⟩ rfl rfl rfl

/-- What a look at a container that is waited for comes to. -/
def Looked (env : Env) (c : Capsule) (s₀ : World) (g : Stage) (u : Uuid) (id : RuntimeId) (s : World) :
    Prop :=
  SeenAt env c s₀ g u s ∨
    At env c s₀ g u (Waiting id) s ∨
    At env c s₀ g u (fun o => o.val.status ≠ .stopped ∧ o.val.status ≠ .running) s

theorem waiting_setStartedAt (v : Option Nat) (h : Waiting id o) : Waiting id (o.setStartedAt v) := h

/-- A container that runs is still waited for. -/
theorem runs_populateRunning (hfree : g.Free s₀ u) :
    Keeps env c s₀ (At env c s₀ g u (Waiting id)) (populateRunning env u) := by
  refine Watched.bind (at_assign (Q := Waiting id) (bland_setStatus _) hfree (fun _ _ => rfl)
    fun o ho => ⟨ho.1, ho.2.1, rfl⟩) fun _ => at_obj fun o ho => ?_
  have hat : ∀ s, On env c s₀ (g.know u o) s → At env c s₀ g u (Waiting id) s :=
    fun s hs => ⟨o, ho, hs⟩
  have hnew : (Detail.isExit o.val.statusDetail || o.val.statusDetail == some .stopped) = false := by
    rw [ho.2.1]
    rfl
  show Runs env c s₀ _ _ _ (do
    onlyIf ((Detail.isExit o.val.statusDetail || o.val.statusDetail == some .stopped) = true)
      (assign u (Obj.setStatusDetail none))
    onlyIf ((Detail.isExit o.val.statusDetail || o.val.statusDetail == some .stopped ||
      o.val.startedAt.isNone) = true) (recordStart env u))
  rw [hnew]
  refine Watched.bind (J := fun _ => At env c s₀ g u (Waiting id))
    (watched_onlyIf (fun h => absurd h Bool.false_ne_true) fun _ => hat) fun _ => ?_
  exact watched_onlyIf (fun _ => at_recordStart (fun _ v ho => waiting_setStartedAt v ho) hfree)
    fun _ _ hs => hs

/-- What the state of a container that is waited for comes to. -/
theorem runs_populateWaiting (hfree : g.Free s₀ u) (hu : u ∈ g.owned) (hlive : g.live = some id)
    (ho : Waiting id o) (k : CriContainer) :
    Runs env c s₀ (fun s => On env c s₀ (g.know u o) s ∧ k ∈ s.containers ∧ k.id = id)
      (fun _ => Looked env c s₀ g u id)
      (fun e s => (e.isRpc = true → At env c s₀ g u (Waiting id) s) ∧ Fallen env c s₀ s)
      (populateContainerState env u k) := by
  have hother (v : Status) (hv : v ≠ .stopped ∧ v ≠ .running) {E : Exn → World → Prop} :
      Runs env c s₀ (fun s => On env c s₀ (g.know u o) s ∧ k ∈ s.containers ∧ k.id = id)
        (fun _ => Looked env c s₀ g u id) E (assign u (Obj.setStatus v)) :=
    (at_assign (P := Waiting id) (bland_setStatus v) hfree (fun _ _ => rfl) fun _ _ => hv).conseq
      (fun _ hs => ⟨o, ho, hs.1⟩) (fun _ _ hs => .inr (.inr hs)) fun _ _ hs => hs
  unfold populateContainerState
  cases hstate : k.state with
  | created => exact hother .created (by decide)
  | running =>
      -- it was not paused
      refine Watched.pre (I := On env c s₀ (g.know u o)) ?_ fun s hs => hs.1
      refine Watched.bind (J := fun paused s => paused = false ∧ On env c s₀ (g.know u o) s) ?_
        fun paused => watched_assuming fun hpaused => ?_
      · refine watched_known (a := .running) (fun s hs => by rw [hs.1.known_know]; exact ho.2.2) ?_
        exact (watched_pure false).pre fun s hs => ⟨rfl, hs⟩
      · rw [hpaused]
        refine watched_onlyIf (fun _ => ?_) fun h => absurd rfl h
        exact (runs_populateRunning hfree).conseq (fun s hs => ⟨o, ho, hs⟩)
          (fun _ s hs => .inr (.inl hs)) fun _ s hs => ⟨fun _ => hs, hs.fallen⟩
  | exited =>
      -- it stays so
      have hended : ∀ s, On env c s₀ (g.know u o) s ∧ k ∈ s.containers ∧ k.id = id →
          At env c s₀ (g.ended id) u (· = o) s := by
        rintro s ⟨hs, hk, hkid⟩
        refine ⟨o, rfl, { hs.1 with dead := fun v hv => ?_ }, hs.2⟩
        rcases List.mem_cons.mp hv with rfl | hv
        · refine ⟨hkid ▸ hs.1.ids k hk, fun k' hk' hsame => ?_⟩
          rw [hs.1.toCounted.eq_of_id hk' hk (hsame.trans hkid.symm), hstate]
        · exact hs.1.dead v hv
      refine Watched.pre ?_ hended
      refine Watched.bind (at_assign (g := g.ended id) (Q := (· = o.setStatus .stopped))
        (bland_setStatus _) ⟨hfree.seen, hfree.done⟩ (fun _ _ => rfl) fun o' ho' => by rw [ho']) fun _ => ?_
      refine runs_at fun o' ho' => ?_
      subst ho'
      refine (runs_recordExit (o := o.setStatus .stopped) hfree hu hlive ho.1 rfl ho.2.1).conseq (fun _ h => h)
        (fun _ s hs => .inl hs) fun e s hs => ⟨fun he => ?_, hs.2⟩
      exact absurd he (by rw [hs.1]; exact Bool.false_ne_true)
  | unknown => exact hother .unknown (by decide)

/-- A look at a container that is waited for. -/
theorem runs_showWaiting (hfree : g.Free s₀ u) (hu : u ∈ g.owned) (hlive : g.live = some id) :
    Runs env c s₀ (At env c s₀ g u (Waiting id)) (fun _ => Looked env c s₀ g u id)
      (fun e s => (e.isRpc = true → At env c s₀ g u (Waiting id) s) ∧ Fallen env c s₀ s)
      (showContainer env u) := by
  refine at_obj fun o ho => ?_
  rw [ho.1]
  refine Watched.bind ((runs_ask fun _ => rfl).raises fun e s hs => ⟨fun _ => ⟨o, ho, hs⟩, hs.fallen⟩)
    fun found => ?_
  cases found with
  | none => exact (watched_raise _).pre fun s hs => ⟨nofun, hs.1.fallen⟩
  | some k =>
      exact (runs_populateWaiting hfree hu hlive ho k).pre fun s hs => ⟨hs.1, mem_of_find hs.2.symm⟩

theorem runs_showStatus (hfree : g.Free s₀ u) (hu : u ∈ g.owned) (hlive : g.live = some id) :
    Runs env c s₀ (At env c s₀ g u (Waiting id))
      (fun status s => (status = .stopped → SeenAt env c s₀ g u s) ∧
        (status = .running → At env c s₀ g u (Waiting id) s) ∧ Fallen env c s₀ s)
      (fun e s => (e.isRpc = true → At env c s₀ g u (Waiting id) s) ∧ Fallen env c s₀ s)
      (showStatus env u) := by
  refine at_obj fun o ho => ?_
  rw [ho.1]
  refine Watched.bind (J := fun _ => At env c s₀ g u (Waiting id)) (watched_onlyIf (fun h => by cases h)
    fun _ s hs => ⟨o, ho, hs⟩) fun _ => ?_
  refine (runs_showWaiting hfree hu hlive).bind fun _ => watched_read _ fun s hs => ?_
  rcases hs with hs | hs | hs
  · refine ⟨fun _ => hs, fun hrun => ?_, hs.fallen⟩
    obtain ⟨o, ho⟩ := hs
    obtain ⟨k, -, -, -, -, -, hstopped, -⟩ := ho.1.seen u (List.mem_cons_self ..)
    exact absurd (hstopped.symm.trans hrun) (by decide)
  · refine ⟨fun hstopped => ?_, fun _ => hs, hs.fallen⟩
    obtain ⟨o, ho, hon⟩ := hs
    rw [hon.1.known_know] at hstopped
    exact absurd (ho.2.2.symm.trans hstopped) (by decide)
  · refine ⟨fun hstopped => ?_, fun hrun => ?_, hs.fallen⟩
    · obtain ⟨o, ho, hon⟩ := hs
      rw [hon.1.known_know] at hstopped
      exact absurd hstopped ho.1
    · obtain ⟨o, ho, hon⟩ := hs
      rw [hon.1.known_know] at hrun
      exact absurd hrun ho.2

theorem at_stop : Keeps env c s₀ (At env c s₀ g u P) (stopIfAbandoned c.uuid) :=
  runs_at fun o ho => runs_stop.conseq (fun _ h => h) (fun _ _ hs => ⟨o, ho, hs⟩) fun _ _ hs => ⟨o, ho, hs⟩

theorem at_tendSidecars (h : ∀ v ∈ sidecars, Tended c s₀ g v) (hne : ∀ v ∈ sidecars, v ≠ u)
    {E : Exn → World → Prop} :
    Runs env c s₀ (At env c s₀ g u P) (fun _ => At env c s₀ g u P) E
      (tendSidecars env c.uuid sidecars) :=
  runs_at fun o ho => (runs_tendSidecars fun v hv => (h v hv).know (hne v hv) o).post
    fun _ _ hs => ⟨o, ho, hs⟩

/-- The wait for an init container ends when it was seen stopped. -/
theorem runs_waitForInitContainer (hfree : g.Free s₀ u) (hu : u ∈ g.owned) (hlive : g.live = some id)
    (h : ∀ v ∈ sidecars, Tended c s₀ g v) (hne : ∀ v ∈ sidecars, v ≠ u) :
    Runs env c s₀ (At env c s₀ g u (Waiting id)) (fun _ => SeenAt env c s₀ g u)
      (fun _ => Fallen env c s₀) (waitForInitContainer env c.uuid u sidecars) := by
  refine watched_loop (L := fun _ => At env c s₀ g u (Waiting id)) (fun _ s hs => hs.fallen.orderly)
    (fun _ => ?_) _ _
  refine (at_stop.raises fun _ s hs => hs.fallen).bind fun _ => ?_
  refine Watched.bind ((runs_showStatus hfree hu hlive).tryExcept fun e => ?_) fun status => ?_
  · refine watched_ite (fun he s hs => ?_) fun _ s hs => hs.2
    exact ⟨nofun, fun _ => hs.1 he, hs.2⟩
  · refine watched_ite (fun hstopped s hs => hs.1 hstopped) fun _ => ?_
    refine Watched.bind (J := fun _ => At env c s₀ g u (Waiting id)) (watched_onlyIf
      (fun _ s hs => hs.2.2) fun hrun s hs => hs.2.1 (not_not.mp hrun)) fun _ => ?_
    exact (at_tendSidecars h hne).bind fun _ => watched_pure (J := fun r s => Sum.elim
      (fun _ => At env c s₀ g u (Waiting id) s) (fun _ => SeenAt env c s₀ g u s) r) (.inl ())

end Waiting

end StartOrder

end Cri

end Zun
