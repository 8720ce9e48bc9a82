import Zun.Compute.TaskState
import Zun.Container.DockerPortsCreate

/-!
# The life of a docker container's ports

Each operation finds the two views in agreement and leaves them so, when nothing fails harmfully in
it, and so they agree after every run of such operations.
-/

namespace Zun

open Effect Prog World Manager

namespace DockerPorts

variable {u : Uuid} {k : Nat} {calls : List (Call × Answer)} {s s' : World} {env : Env}
  {sent r : Record}

/-! ## What agrees between two operations -/

theorem portIds_addressesOf {p : Port} {keep : Bool} {n : NetId} {id : PortId}
    (h : id ∈ ((n, Neutron.addressesOf keep p) : NetId × List Addr).2.map (·.port)) : id = p.id := by
  rw [Neutron.ports_addressesOf] at h
  exact List.eq_of_mem_replicate h

theorem Rests.agrees (h : Rests u s) : Agrees u s where
  named p hp hmade := by
    have hwire := mem_wires hp
    cases hrow : s.db u with
    | none =>
        have hnot : p.zunMade = false := h.gone hrow p.unplugged hwire
        cases hmade.symm.trans hnot
    | some r =>
        refine ⟨r, rfl, ?_⟩
        rcases (h.placed r hrow).made _ hwire hmade with hin | ⟨-, -, net, hmem, -⟩
        · exact List.mem_flatMap.mpr ⟨_, hin, mem_ports_addressesOf (h.wired.addressed _ hwire hmade)⟩
        · cases hmem
  there r hrow id hid := by
    obtain ⟨entry, hentry, hport⟩ := List.mem_flatMap.mp hid
    obtain ⟨p, hp, -, haddrs⟩ := (h.placed r hrow).entries entry hentry
    rw [haddrs] at hport
    obtain ⟨q, hq, hunplugged⟩ := of_mem_wires hp
    refine ⟨q, hq, ?_⟩
    rw [portIds_addressesOf (n := entry.1) hport, ← hunplugged]
    rfl
  bare r hrow hhost := h.bare r hrow hhost

theorem rests_hand (h : Rests u s) (o : Obj) : Rests u (s.setMem u fun _ => o) :=
  ⟨h.wired, h.gone, h.placed, h.bare⟩

/-! ## One operation -/

/-- What an operation promises, when nothing fails harmfully in it. -/
theorem rests_of_unless {bad : Call × Answer → List (Call × Answer) → Prop} {I : World → Prop}
    {p : Prog World Exn Unit} (h : Unless (Spoiled bad calls) I (fun _ => Rests u) (fun _ => Rests u) p)
    (hs : I s) (hends : (p s).1 ≠ .halt) (hsound : ¬ Spoiled bad calls (p s).2) : Rests u (p s).2 := by
  have hrun : Spoiled bad calls (p s).2 ∨ Ended (fun _ => Rests u) (fun _ => Rests u) (p s).1 (p s).2 :=
    h.ends s hs
  rcases hrun with hbad | hend
  · exact absurd hbad hsound
  cases hres : (p s).1 with
  | ok a =>
      rw [hres] at hend
      exact hend
  | raise e =>
      rw [hres] at hend
      exact hend
  | halt => exact absurd hres hends

theorem queued_hand (h : Rests u s) {Q : List Port → Prop} (hQ : Q s.wires) (hrow : s.db u = some r)
    (o : Obj) : Queued u (held u s) s.log Q r o (s.setMem u fun _ => o) :=
  ⟨rests_hand h o, hQ, Nat.le_refl _, List.suffix_refl _, hrow, setMem_mem_self _⟩

theorem Current.lists {Q : List Port → Prop} {o : Obj} (h : Current u k calls Q r o s) :
    Lists u r.addresses s := by
  show (s.mem u).val.addresses = _
  rw [h.obj]
  rfl

/-- What is asked of a record that is gone does nothing. -/
theorem rests_whenGone {op : Prog World Exn Unit} (h : Rests u s) (hgone : s.db u = none) (o : Obj) :
    Rests u (whenCaughtUp env u op (s.setMem u fun _ => o)).2 := by
  have hhand := rests_hand h o
  exact wp_whenCaughtUp_cases (Q := fun _ s' => Rests u s') (fun row hrow => nomatch hgone.symm.trans hrow)
    (fun _ => leveled_turn _ hhand) (fun _ => leveled_turn _ hhand) (leveled_turn _ hhand)

theorem rests_attach {net : RequestedNetwork} (h : Rests u s)
    (hposs : Possible u ⟨env, sent, .attach net⟩ s) (hsound : Sound u ⟨env, sent, .attach net⟩ s) :
    Rests u (step u ⟨env, sent, .attach net⟩ s) := by
  cases hrow : s.db u with
  | none => exact rests_whenGone h hrow _
  | some r =>
      have hhost := hsound.attach net r rfl hrow
      have hasks : Asks s.wires net := by
        rcases hposs.attach net rfl with hnone | ⟨p, hp, hport, hnet, hkeep⟩
        · exact .inl hnone
        · exact .inr ⟨p.unplugged, mem_wires hp, hport, hnet, hkeep⟩
      have hop : Unless (Spoiled (harmful r (.attach net)) s.log)
          (Queued u (held u s) s.log (fun wires => Asks wires net) r (Obj.of sent)) (fun _ => Rests u)
          (fun _ => Rests u) (whenCaughtUp env u (doNetworkAttach env u net)) := by
        refine unless_whenCaughtUp ((unless_doNetworkAttach hposs.addressed r).pre fun s' hs =>
          ⟨hs.settled, ⟨r, hs.row, ?_⟩, ?_⟩)
        · exact Option.isSome_iff_ne_none.mp hhost
        · rw [hs.obj]
          exact Option.isSome_iff_ne_none.mp hhost
      have hend := rests_of_unless hop (queued_hand h hasks hrow _) hposs.ends (hsound.calls r hrow)
      exact hend

theorem rests_detach {net : NetId} (h : Rests u s)
    (hposs : Possible u ⟨env, sent, .detach net⟩ s) (hsound : Sound u ⟨env, sent, .detach net⟩ s) :
    Rests u (step u ⟨env, sent, .detach net⟩ s) := by
  cases hrow : s.db u with
  | none => exact rests_whenGone h hrow _
  | some r =>
      have hop : Unless (Spoiled (harmful r (.detach net)) s.log)
          (Queued u (held u s) s.log (fun _ => True) r (Obj.of sent)) (fun _ => Rests u)
          (fun _ => Rests u) (whenCaughtUp env u (doNetworkDetach env u net)) :=
        unless_whenCaughtUp ((unless_doNetworkDetach r).pre fun s' hs => ⟨hs.settled, hs.lists⟩)
      have hend := rests_of_unless hop (queued_hand h trivial hrow _) hposs.ends (hsound.calls r hrow)
      exact hend

theorem rests_delete {force : Bool} (h : Rests u s)
    (hposs : Possible u ⟨env, sent, .delete force⟩ s) (hsound : Sound u ⟨env, sent, .delete force⟩ s) :
    Rests u (step u ⟨env, sent, .delete force⟩ s) := by
  let o : Obj := (Obj.of sent).setStatus .deleting
  have hstep : perform u ⟨env, sent, .delete force⟩ s = (if sent.host.isSome then
      Manager.thread env (defaultDrivers env) (.container u) (.delete force) else destroy env u)
        (s.setMem u fun _ => o) := rfl
  have hends := hposs.ends
  have hharm := hsound.calls
  unfold step at hharm ⊢
  rw [hstep] at hends hharm ⊢
  cases hhost : sent.host.isSome with
  | false =>
      rw [hhost, if_neg Bool.false_ne_true] at hends hharm
      rw [if_neg Bool.false_ne_true]
      have hnone : sent.host = none := Option.isNone_iff_eq_none.mp (by simpa using hhost)
      have hrow := hposs.delete force rfl hnone
      exact rests_of_unless (unless_destroyBare hnone) ⟨rests_hand h o, hrow⟩ hends (hharm sent hrow)
  | true =>
      rw [hhost, if_pos rfl] at hends hharm
      rw [if_pos rfl]
      cases hrow : s.db u with
      | none => exact rests_whenGone h hrow _
      | some r =>
          have hop : Unless (Spoiled (harmful r (.delete force)) s.log)
              (Queued u (held u s) s.log (fun _ => True) r o) (fun _ => Rests u) (fun _ => Rests u)
              (whenCaughtUp env u (doContainerDelete env (defaultDrivers env) (.container u) force)) :=
            unless_whenCaughtUp ((unless_doContainerDelete hsound.volumes).pre fun s' hs =>
              ⟨hs.settled, hs.lists⟩)
          exact rests_of_unless hop (queued_hand h trivial hrow o) hends (hharm r hrow)

theorem rests_create {nets : List RequestedNetwork} {vols : RequestedVolumes} {pci run : Bool}
    (h : Rests u s) (hposs : Possible u ⟨env, sent, .create nets vols pci run⟩ s)
    (hsound : Sound u ⟨env, sent, .create nets vols pci run⟩ s) :
    Rests u (step u ⟨env, sent, .create nets vols pci run⟩ s) := by
  obtain ⟨hfresh, hasks⟩ := hposs.create nets vols pci run rfl
  have hearly : Early u (held u s + (vols.of u).length) s.log nets (vols.of u).length
      (s.setMem u fun _ => Obj.of sent) := by
    refine ⟨⟨h.wired, ⟨sent, hfresh.row, hfresh.addresses⟩, ?_, fun p hp => ?_, hfresh.docker,
      List.suffix_refl _⟩, ?_, fun net hnet => ?_, Nat.le_refl _⟩
    · rw [setMem_mem_self]
      exact hfresh.addresses
    · obtain ⟨q, hq, rfl⟩ := of_mem_wires hp
      exact hfresh.ports q hq
    · rw [setMem_mem_self]
      exact hfresh.memory
    · rcases hasks net hnet with hnone | ⟨p, hp, hport, hnet', hkeep⟩
      · exact .inl hnone
      · exact .inr ⟨p.unplugged, mem_wires hp, hport, hnet', hkeep⟩
  have hop : Unless (Spoiled (harmful sent (.create nets vols pci run)) s.log)
      (Early u (held u s + (vols.of u).length) s.log nets (vols.of u).length) (fun _ => Rests u)
      (fun _ => Rests u) (containerCreate env (defaultDrivers env) (.container u) nets vols pci run) :=
    unless_containerCreate (fun x before hx hdid hraised => ⟨hx, .inr ⟨hdid, hraised⟩⟩)
      hposs.addressed (fun x before hx hun => ⟨hx, .inl hun⟩) hsound.volumes pci run
  have hend := rests_of_unless hop hearly hposs.ends (hsound.calls sent hfresh.row)
  exact hend

theorem merged_of_unchanged {s : World} (row : Record) (haddr : (s.mem u).changed.addresses = false)
    (hhost : (s.mem u).changed.host = false) (htask : (s.mem u).changed.taskState = false) :
    (s.merged u row).addresses = row.addresses ∧ (s.merged u row).host = row.host ∧
      (s.merged u row).taskState = row.taskState := by
  unfold World.merged Changed.merge
  rw [haddr, hhost, htask]
  exact ⟨rfl, rfl, rfl⟩

/-- What the API's `save` of a rebuild leaves. -/
theorem rests_saved (h : Rests u s) {row : Record} (hrow : s.db u = some row)
    (haddr : (s.merged u row).addresses = row.addresses) (hhost : (s.merged u row).host = row.host) :
    Rests u (s.saved u row) where
  wired := h.wired
  gone hnone := nomatch (saved_db_self row).symm.trans hnone
  placed r hr := by
    cases (saved_db_self row).symm.trans hr
    rw [haddr]
    exact h.placed row hrow
  bare r hr hnone := by
    cases (saved_db_self row).symm.trans hr
    rw [haddr]
    exact h.bare row hrow (hhost ▸ hnone)

/-- The thread of a rebuild that was written to the row, as the API leaves it. -/
structure Written (u : Uuid) (sent r : Record) (before s : World) : Prop where
  rests : Rests u s
  row : ∃ r', s.db u = some r' ∧ r'.addresses = r.addresses ∧ r'.taskState = r.taskState
  obj : s.mem u = Obj.of { sent with status := .rebuilding }
  docker : s.dockerContainers = before.dockerContainers
  few : held u s = held u before
  since : before.log <:+ s.log

theorem written_saved (h : Rests u s) (hrow : s.db u = some r) :
    Written u sent r s ((((s.setMem u fun _ => (Obj.of sent).setStatus .rebuilding).turn env
      (.save u ((s.setMem u fun _ => (Obj.of sent).setStatus .rebuilding).merged u r))).saved u r)) := by
  have hturn : Rests u ((s.setMem u fun _ => (Obj.of sent).setStatus .rebuilding).turn env
      (.save u ((s.setMem u fun _ => (Obj.of sent).setStatus .rebuilding).merged u r))) :=
    leveled_turn _ (rests_hand h ((Obj.of sent).setStatus .rebuilding))
  have hmem : ((s.setMem u fun _ => (Obj.of sent).setStatus .rebuilding).mem u)
      = (Obj.of sent).setStatus .rebuilding := setMem_mem_self _
  obtain ⟨haddr, hhost, htask⟩ := merged_of_unchanged (u := u)
    (s := (s.setMem u fun _ => (Obj.of sent).setStatus .rebuilding).turn env
      (.save u ((s.setMem u fun _ => (Obj.of sent).setStatus .rebuilding).merged u r))) r
    (by rw [turn_mem, hmem]; rfl) (by rw [turn_mem, hmem]; rfl) (by rw [turn_mem, hmem]; rfl)
  refine ⟨rests_saved hturn hrow haddr hhost, ⟨_, saved_db_self r, haddr, htask⟩, ?_, rfl, rfl,
    List.suffix_cons ..⟩
  rw [saved_mem_self, turn_mem, hmem]
  rfl

/-- A rebuild without networks. -/
theorem Written.bare (h : Written u sent r s s') (haddr : r.addresses = [])
    (hdocker : s.dockerContainers = []) (run : Bool) :
    Rests u (whenCaughtUp env u (doContainerRebuild env (defaultDrivers env) u run) s').2 := by
  refine wp_whenCaughtUp_cases (Q := fun _ s' => Rests u s') (fun row hrow => ?_)
    (fun _ => leveled_turn _ h.rests) (fun _ => leveled_turn _ h.rests) (leveled_turn _ h.rests)
  obtain ⟨r', hr', haddr', -⟩ := h.row
  cases hrow.symm.trans hr'
  have hturn : Rests u (s'.turn env (.readRow u)) := leveled_turn _ h.rests
  have hbare : row.addresses = [] := haddr'.trans haddr
  have hunmade : Unmade u [] ((s'.turn env (.readRow u)).setMem u (catchUp row)) := by
    refine ⟨hturn.wired, ⟨row, hrow, hbare⟩, ?_, fun p hp => Bool.eq_false_iff.mpr fun hmade => ?_,
      h.docker.trans hdocker, List.nil_suffix⟩
    · rw [setMem_mem_self]
      exact hbare
    · rcases (hturn.placed row hrow).made p hp hmade with hin | ⟨-, -, net, hmem, -⟩
      · rw [hbare] at hin
        cases hin
      · cases hmem
  exact (unmade_rebuild run _ hunmade).rests

/-- A rebuild with networks. -/
theorem unless_written (hips : ∀ n, env.fixedIps n ≠ []) (hprompt : Prompt env (held u s))
    (hne : r.addresses ≠ []) (hclean : r.taskState = none ∨ sent.addresses = r.addresses) (run : Bool) :
    Unless (Spoiled (harmful r .rebuild) s.log) (Written u sent r s) (fun _ => Rests u) (fun _ => Rests u)
      (whenCaughtUp env u (doContainerRebuild env (defaultDrivers env) u run)) := by
  have hkept : Within (Kept (Spoiled (harmful r .rebuild) s.log))
      (whenCaughtUp env u (doContainerRebuild env (defaultDrivers env) u run)) :=
    (unless_whenCaughtUp (k := held u s) (Q := fun _ => False) (o := Obj.of sent) (r := r)
      ((unless_rebuild hips hprompt run).pre fun s' hs => hs.settled.ports.elim)).kept
  refine unless_of_forall hkept fun s₁ h => ?_
  obtain ⟨r', hr', haddr, htask⟩ := h.row
  refine (unless_whenCaughtUp (k := held u s) (Q := fun _ => True) (r := r')
    (o := Obj.of { sent with status := .rebuilding })
    ((unless_rebuild hips hprompt run).pre fun s' hs => ?_)).pre fun s' hs => ?_
  · have hobj : (s'.mem u).val.addresses ≠ [] := by
      rw [hs.obj]
      exact haddr ▸ hne
    refine ⟨hs.settled, hs.settled.hosted rfl hobj, hobj, fun hsome => ?_⟩
    rw [hs.obj] at hsome ⊢
    rcases hclean with hnone | hsame
    · exact absurd (htask.trans hnone) hsome
    · show (false || sent.addresses != r'.addresses) = false
      rw [hsame, haddr]
      simp
  · subst hs
    exact ⟨h.rests, trivial, Nat.le_of_eq h.few, h.since, hr', h.obj⟩

theorem rests_saveThen {p : Prog World Exn Unit} (h : Rests u s)
    (hok : ∀ row, s.db u = some row →
      Rests u (p ((s.turn env (.save u (s.merged u row))).saved u row)).2) :
    Rests u ((save env u >>= fun _ => p) s).2 := by
  have hturn (c : Call) : Rests u (s.turn env c) := leveled_turn c h
  show wp (save env u >>= fun _ => p) (fun _ s' => Rests u s') s
  rw [wp_bind]
  exact wp_save (fun _ => h) (fun row hrow _ => hok row hrow) (fun _ _ _ _ => hturn _) fun _ _ _ => hturn _

theorem rests_rebuild (h : Rests u s) (hposs : Possible u ⟨env, sent, .rebuild⟩ s)
    (hsound : Sound u ⟨env, sent, .rebuild⟩ s) : Rests u (step u ⟨env, sent, .rebuild⟩ s) := by
  let o : Obj := (Obj.of sent).setStatus .rebuilding
  have hhand : Rests u (s.setMem u fun _ => o) := rests_hand h o
  cases hrow : s.db u with
  | none => exact rests_saveThen hhand fun row hrow' => nomatch hrow.symm.trans hrow'
  | some r =>
      obtain ⟨hnets, hclean⟩ := hsound.rebuild r rfl hrow
      by_cases haddr : r.addresses = []
      · have hdocker := hnets.resolve_left (not_not_intro haddr)
        refine rests_saveThen hhand fun row hrow' => ?_
        cases hrow.symm.trans hrow'
        exact (written_saved h hrow).bare haddr hdocker _
      · have hop : Unless (Spoiled (harmful r .rebuild) s.log) (fun s' => s' = s.setMem u fun _ => o)
            (fun _ => Rests u) (fun _ => Rests u) (save env u >>= fun _ => whenCaughtUp env u
              (doContainerRebuild env (defaultDrivers env) u (sent.status = .running))) := by
          refine Unless.bind (unless_save (fun s' hs => ?_) (fun s' row hs hrow' _ => ?_)
            fun s' row e hs _ _ => .inr ?_) fun _ =>
              unless_written (s := s) hposs.addressed hsound.volumes haddr hclean _
          · exact ⟨r, hs ▸ hrow⟩
          · subst hs
            cases hrow.symm.trans hrow'
            exact written_saved h hrow
          · subst hs
            exact leveled_turn _ hhand
        have hend := rests_of_unless hop rfl hposs.ends (hsound.calls r hrow)
        exact hend

/-! ## Runs -/

/-- Each operation leaves the two views in agreement. -/
theorem rests_step {e : Event} (h : Rests u s) (hposs : Possible u e s) (hsound : Sound u e s) :
    Rests u (step u e s) := by
  obtain ⟨env, sent, request⟩ := e
  cases request with
  | create nets vols pci run => exact rests_create h hposs hsound
  | attach net => exact rests_attach h hposs hsound
  | detach net => exact rests_detach h hposs hsound
  | rebuild => exact rests_rebuild h hposs hsound
  | delete force => exact rests_delete h hposs hsound

/-- A record that was just made, and a Neutron that gives out its ids in order. -/
def Begun (u : Uuid) (s : World) : Prop := (∃ r, Fresh u r s) ∧ Wired s.wires s.nextId

theorem Begun.rests (h : Begun u s) : Rests u s := by
  obtain ⟨⟨r, hfresh⟩, hwired⟩ := h
  have hnone : NoneMade s.wires := by
    intro p hp
    obtain ⟨q, hq, rfl⟩ := of_mem_wires hp
    exact hfresh.ports q hq
  refine ⟨hwired, fun _ => hnone, fun r' hr' => ?_, fun r' hr' hhost => ?_⟩
  · cases hfresh.row.symm.trans hr'
    rw [hfresh.addresses]
    exact placed_nil hnone
  · cases hfresh.row.symm.trans hr'
    exact ⟨hfresh.addresses, hfresh.docker⟩

/-- In a run whose operations meet no harmful failure, the two views agree whenever none is in
progress. -/
theorem agrees_of_sound (u : Uuid) (s : World)
    (h : Reached (Begun u) (step u) (fun e s => Possible u e s ∧ Sound u e s) s) : Agrees u s := by
  have hrests := h.invariant (I := Rests u) (fun _ hs => hs.rests)
    fun e s hok hs => rests_step hs hok.1 hok.2
  exact hrests.agrees

/-! ### A run -/

/-- A record that was just made. -/
def newRecord : Record := { status := .creating, memory := 512 }

def newWorld : World := World.ofRows [(1, newRecord)]

/-- It is created on one network, attached to another, and taken off the first. -/
def threeRequests : List Event :=
  [⟨{}, newRecord, .create [{ network := 10 }] [] false false⟩,
   ⟨{}, newRecord, .attach { network := 11 }⟩,
   ⟨{}, newRecord, .detach 10⟩]

theorem not_spoiled {bad : Call × Answer → List (Call × Answer) → Prop}
    (hbad : ∀ x before, bad x before → x.2 ≠ .ok) (hall : s.log.all (·.2 = .ok) = true) :
    ¬ Spoiled bad calls s := by
  rintro ⟨after, x, before, hlog, hx⟩
  refine hbad x before hx (of_decide_eq_true (List.all_eq_true.mp hall x ?_))
  rw [hlog]
  exact List.mem_append_right _ List.mem_cons_self

theorem harmful_ne {q : Request} {x : Call × Answer} {before : List (Call × Answer)}
    (h : harmful r q x before) : x.2 ≠ .ok := h.1

theorem prompt_zero (env : Env) : Prompt env 0 := by
  intro vs hvs s
  cases vs with
  | nil =>
      have hpoll : pollDeleted env env.polls [] = pure true := by cases env.polls <;> rfl
      rw [hpoll]
      show (Result.ok true : Result Exn Bool) ≠ .ok false
      rintro ⟨⟩
  | cons v vs => cases hvs

/-- The run is one of the runs the theorem is about, and its record names one port in the end. -/
theorem agrees_of_threeRequests :
    Agrees 1 (steps (step 1) threeRequests newWorld) ∧
      ((steps (step 1) threeRequests newWorld).db 1).map (·.portIds) = some [3] := by
  have hbegun : Begun 1 newWorld := by
    refine ⟨⟨newRecord, rfl, rfl, nofun, rfl, nofun, rfl⟩, List.nodup_nil, nofun, nofun⟩
  have hsound (e : Event) (s : World) (hcreate : ∀ nets vols pci run, e.request = .create nets vols pci run →
      vols.of 1 = []) (hheld : held 1 s = 0) (hlog : (step 1 e s).log.all (·.2 = .ok) = true)
      (hhost : (∃ net, e.request = .attach net) → ∀ r, s.db 1 = some r → r.host.isSome) (hrebuild : e.request ≠ .rebuild) : Sound 1 e s := by
    refine ⟨fun r hr => not_spoiled (fun _ _ => harmful_ne) hlog, ?_, fun net r hnet hr => hhost ⟨net, hnet⟩ r hr,
      fun r hr => absurd hr hrebuild⟩
    have hzero : volumesOf 1 e.request s = 0 := by
      unfold volumesOf
      split
      case h_1 nets vols pci run heq => rw [hcreate _ _ _ _ heq, hheld]; rfl
      case h_2 => exact hheld
    rw [hzero]
    exact prompt_zero _
  have hips (n : Nat) : ({} : Env).fixedIps n ≠ [] := List.cons_ne_nil _ _
  have hrun : Allowed (step 1) (fun e s => Possible 1 e s ∧ Sound 1 e s) threeRequests newWorld := by
    refine ⟨⟨⟨by decide +kernel, hips, ?_, nofun, nofun⟩, ?_⟩, ⟨⟨by decide +kernel, hips, nofun, ?_, nofun⟩, ?_⟩,
      ⟨⟨by decide +kernel, hips, nofun, nofun, nofun⟩, ?_⟩, trivial⟩
    · rintro _ _ _ _ ⟨⟩
      refine ⟨⟨rfl, rfl, nofun, rfl, nofun, rfl⟩, fun net hnet => ?_⟩
      rw [List.mem_singleton.mp hnet]
      exact .inl ⟨rfl, rfl⟩
    · refine hsound _ _ ?_ (by decide +kernel) (by decide +kernel) ?_ nofun
      · rintro _ _ _ _ ⟨⟩
        rfl
      · rintro ⟨_, ⟨⟩⟩
    · rintro _ ⟨⟩
      exact .inl ⟨rfl, rfl⟩
    · refine hsound _ _ nofun (by decide +kernel) (by decide +kernel) (fun _ r hr => ?_) nofun
      have hhost : ((step 1 ⟨{}, newRecord, .create [{ network := 10 }] [] false false⟩ newWorld).db 1).all
          (·.host.isSome) = true := by decide +kernel
      rw [hr] at hhost
      exact hhost
    · refine hsound _ _ nofun (by decide +kernel) (by decide +kernel) (fun _ r hr => ?_) nofun
      have hhost : ((step 1 ⟨{}, newRecord, .attach { network := 11 }⟩
          (step 1 ⟨{}, newRecord, .create [{ network := 10 }] [] false false⟩ newWorld)).db 1).all
          (·.host.isSome) = true := by decide +kernel
      rw [hr] at hhost
      exact hhost
  exact ⟨agrees_of_sound 1 _ ((Reached.init hbegun).steps hrun), by decide +kernel⟩

/-- Docker refuses to create the container. -/
def refusing : Env where
  answer _ c :=
    match c with
    | .docker .create _ => .raise { cls := .dockerError .other }
    | _ => .ok

/-- A create whose port is made and whose container is not leaves a record without a host that names
the port. -/
theorem not_agrees : ¬ ∀ (u : Uuid) (s : World), Reached (Begun u) (step u) (Possible u) s → Agrees u s := by
  intro h
  have hbegun : Begun 1 newWorld := by
    refine ⟨⟨newRecord, rfl, rfl, nofun, rfl, nofun, rfl⟩, List.nodup_nil, nofun, nofun⟩
  have hposs : Possible 1 ⟨refusing, newRecord, .create [{ network := 10 }] [] false false⟩ newWorld := by
    refine ⟨by decide +kernel, fun _ => List.cons_ne_nil _ _, ?_, nofun, nofun⟩
    rintro _ _ _ _ ⟨⟩
    refine ⟨⟨rfl, rfl, nofun, rfl, nofun, rfl⟩, fun net hnet => ?_⟩
    rw [List.mem_singleton.mp hnet]
    exact .inl ⟨rfl, rfl⟩
  have hagrees := h 1 _ ((Reached.init hbegun).step _ hposs)
  have hrow : ((step 1 ⟨refusing, newRecord, .create [{ network := 10 }] [] false false⟩ newWorld).db 1).map
      (fun r => (r.host, r.portIds)) = some (none, [1]) := by decide +kernel
  obtain ⟨r, hr, heq⟩ := Option.map_eq_some_iff.mp hrow
  have hbare := (hagrees.bare r hr (congrArg Prod.fst heq)).1
  have hids : r.portIds = [1] := congrArg Prod.snd heq
  unfold Record.portIds at hids
  rw [hbare] at hids
  cases hids

end DockerPorts

end Zun
