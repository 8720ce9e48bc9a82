import Zun.Container.DockerPortsBuild

/-!
# What is around an operation, and an attach

An operation that does not come to the ports leaves the record `Settled`, whatever fails, and so does
what comes before and after one.  An attach makes a port, and is a build of one network then, or
brings one, and then nothing is made that the record would have to name.
-/

namespace Zun

open Effect Prog World Manager

namespace DockerPorts

variable {u : Uuid} {k : Nat} {calls : List (Call × Answer)} {s s' : World} {env : Env}
  {I K : World → Prop} {bad : Call × Answer → List (Call × Answer) → Prop}
  {E : Exn → World → Prop} {Q : List Port → Prop} {strict clean : Bool}
  {addresses : List (NetId × List Addr)} {net : RequestedNetwork}

/-! ## Further sets of worlds -/

/-- The container has its host. -/
structure Hosted (u : Uuid) (s : World) : Prop where
  row : ∃ r, s.db u = some r ∧ r.host ≠ none
  obj : (s.mem u).val.host ≠ none

/-- Every port that the object lists is to be kept. -/
def Preserved (u : Uuid) (s : World) : Prop :=
  ∀ entry ∈ (s.mem u).val.addresses, ∀ a ∈ entry.2, a.preserveOnDelete = true

/-- What the object lists. -/
def Lists (u : Uuid) (addresses : List (NetId × List Addr)) (s : World) : Prop :=
  (s.mem u).val.addresses = addresses

instance : Leveled u (Hosted u) where
  congr h hs := by
    obtain ⟨r, hr, hhost⟩ := h.row
    exact ⟨⟨r, hs.row.trans hr, hhost⟩, by rw [hs.host]; exact h.obj⟩

instance : Leveled u (Preserved u) where
  congr h hs entry hentry := h entry (hs.addresses ▸ hentry)

instance : Leveled u (Lists u addresses) where
  congr h hs := hs.addresses.trans h

instance {c : Prop} [Leveled u I] : Leveled u fun s => I s ∧ c where
  congr h hs := ⟨Leveled.congr h.1 hs, h.2⟩

instance {I K : World → Prop} [Leveled u I] [Leveled u K] : Leveled u fun s => I s ∧ K s where
  congr h hs := ⟨Leveled.congr h.1 hs, Leveled.congr h.2 hs⟩

/-- A leveled set that the `save` of its own record keeps. -/
theorem lenient_of_save [Leveled u I] (h : ∀ s row, s.db u = some row → I s → I (s.saved u row)) :
    Lenient (Kept I) where
  assign hf hs := Leveled.congr hs (level_setMem hf.sameHost hf.addresses hf.addressesChanged hf.memory _)
  save {s v row} hrow hs := by
    by_cases hv : u = v
    · subst hv
      exact h s row hrow hs
    · exact Leveled.congr hs (level_saved_of_ne hv row s)

theorem Hosted.saved (h : Hosted u s) {row : Record} (hrow : s.db u = some row) :
    Hosted u (s.saved u row) := by
  obtain ⟨r, hr, hhost⟩ := h.row
  cases hrow.symm.trans hr
  refine ⟨⟨_, saved_db_self row, ?_⟩, by rw [saved_val]; exact h.obj⟩
  rcases merged_host (s := s) (u := u) row with heq | heq
  · rw [heq]
    exact h.obj
  · rw [heq]
    exact hhost

instance : Lenient (Kept (Hosted u)) := lenient_of_save fun _ _ hrow h => h.saved hrow

instance : Lenient (Kept (Preserved u)) := lenient_of_save fun s row _ h => by
  show ∀ entry ∈ ((s.saved u row).mem u).val.addresses, _
  rw [saved_val]
  exact h

instance : Lenient (Kept (Lists u addresses)) := lenient_of_save fun s row _ h => by
  show ((s.saved u row).mem u).val.addresses = _
  rw [saved_val]
  exact h

instance : Lenient (Kept (Unmade u calls)) := lenient_of_save fun _ _ hrow h => h.saved hrow

instance {I K : World → Prop} [Lenient (Kept I)] [Lenient (Kept K)] :
    Lenient (Kept fun s => I s ∧ K s) where
  assign hf h := ⟨Lenient.assign (R := Kept I) hf h.1, Lenient.assign (R := Kept K) hf h.2⟩
  save hrow h := ⟨Lenient.save (R := Kept I) hrow h.1, Lenient.save (R := Kept K) hrow h.2⟩

/-! ## Volumes that go in time -/

section Prompt

variable {fail : Subject → String → Prog World Exn Unit}

theorem length_detachEach {reraise : Bool} {vs removed : List VolMap} {s s' : World}
    (h : detachEach env reraise vs s = (.ok removed, s')) : removed.length ≤ vs.length := by
  induction vs generalizing s s' removed with
  | nil =>
      cases h
      exact Nat.le_refl _
  | cons v vs ih =>
      obtain ⟨_, s₁, -, h⟩ := andThen_ok h
      dsimp only at h
      split at h
      · obtain ⟨_, s₂, -, h⟩ := andThen_ok h
        obtain ⟨rest, s₃, hrest, h⟩ := andThen_ok h
        cases h
        exact Nat.succ_le_succ (ih hrest)
      · exact Nat.le_succ_of_le (ih h)

/-- A wait that is never given up fails no record. -/
theorem within_waitInTime {R : World → World → Prop} [Bystander env R] (hprompt : Prompt env k)
    {vs : List VolMap} (hvs : vs.length ≤ k) (x : Subject) :
    Within R (waitForVolumesDeleted env fail x vs) := by
  refine within_of_wp fun s => ?_
  unfold waitForVolumesDeleted
  rw [wp_bind]
  have hpoll : Within R (pollDeleted env env.polls vs) := within_pollDeleted _ _
  refine wp_mono (wp_and (hpoll.wp s) (hprompt vs hvs s)) fun r s' hr => ?_
  obtain ⟨hR, hnot⟩ := hr
  cases r with
  | ok deleted =>
      cases deleted with
      | true => exact hR
      | false => exact absurd rfl hnot
  | raise e => exact hR
  | halt => exact hR

/-- The volumes of a container that has no more than are gone in time. -/
theorem within_detachInTime [Leveled u I] (hfew : ∀ s, I s → held u s ≤ k) (hprompt : Prompt env k)
    (reraise : Bool) : Within (Kept I) (detachVolumesOf env fail reraise (.container u)) := by
  refine kept_bind (T := fun vs => vs.length ≤ k) (within_ask _ _ rfl) (fun s vs s' hs hrun => ?_)
    fun vs hvs => ?_
  · have hs' : I s' := (within_ask _ _ rfl).keeps hs hrun
    obtain ⟨_, s₁, -, hread⟩ := andThen_ok hrun
    cases hread
    have hcount := hfew _ hs'
    unfold held at hcount
    rw [List.countP_eq_length_filter] at hcount
    exact hcount
  · refine kept_bind (within_detachEach _ _) (fun s removed s' _ hrun => ?_) fun removed hle =>
      within_waitInTime hprompt (Nat.le_trans hle hvs) _
    exact length_detachEach hrun

variable [Leveled u I] [Lenient (Kept I)] (hfew : ∀ s, I s → held u s ≤ k) (hprompt : Prompt env k)

include hfew hprompt

/-- A record that is failed and keeps its host. -/
theorem within_failInTime (fallback : String) (e : Exn) :
    Within (Kept I) (failFor env (.container u) fallback false e) := by
  show Within (Kept I) (failContainer env (2 + 1) (.container u) _ false)
  refine ((within_detachInTime hfew hprompt true).swallow).bind fun _ => ?_
  refine Within.bind (within_pure _) fun _ => (within_read _).bind fun autoRemove => ?_
  refine within_ite ?_ ?_
  · exact (within_inward (inward_setStatus _)).bind fun _ =>
      (within_inward (inward_setStatusReason _)).bind fun _ => within_saveInward u
  · exact (within_inward (inward_setStatus _)).bind fun _ =>
      (within_inward (inward_setStatusReason _)).bind fun _ =>
        (within_pure _).bind fun _ => (within_saveInward u).bind fun _ => within_pure _

end Prompt

/-! ## Around an operation -/

/-- What `_update_task_state` does before its body and after it. -/
def mark (env : Env) (u : Uuid) (t : Option TaskState) : Prog World Exn Unit := do
  assign u (Obj.setTaskState t)
  save env u

theorem leveled_setTaskState [Leveled u I] (t : Option TaskState) :
    Within (Kept I) (assign u (Obj.setTaskState t)) :=
  leveled_assign (fun _ => rfl) (fun _ => rfl) (fun _ => rfl) fun _ => rfl

theorem within_mark [Leveled u I] [Lenient (Kept I)] (t : Option TaskState) :
    Within (Kept I) (mark env u t) :=
  (leveled_setTaskState t).bind fun _ => within_saveInward u

theorem spoiled_mark (t : Option TaskState) : Within (Kept (Spoiled bad calls)) (mark env u t) :=
  (within_modify fun _ hs => hs).bind fun _ => within_save u

theorem leveled_updateTaskState {α : Type} [Leveled u I] [Lenient (Kept I)] {t : TaskState}
    {body : Prog World Exn α} (h : Within (Kept I) body) :
    Within (Kept I) (updateTaskState env u t body) := by
  refine (within_read _).bind fun current => within_ite h ?_
  refine (leveled_setTaskState _).bind fun _ => ?_
  exact (within_saveInward u).bind fun _ => h.tryFinally (within_mark none)

theorem unless_updateTaskState {α : Type} {t : TaskState} {body : Prog World Exn α}
    {I' : World → Prop} {J : α → World → Prop}
    (hskip : ∀ s, I s → (s.mem u).val.taskState.isSome = true → I' s)
    (hmark : Unless (Spoiled bad calls) (fun s => I s ∧ (s.mem u).val.taskState = none) (fun _ => I') E
      (mark env u (some t)))
    (hbody : Unless (Spoiled bad calls) I' J E body)
    (hok : ∀ a, Unless (Spoiled bad calls) (J a) (fun _ => J a) E (mark env u none))
    (hraise : ∀ e, Unless (Spoiled bad calls) (E e) (fun _ => E e) E (mark env u none)) :
    Unless (Spoiled bad calls) I J E (updateTaskState env u t body) := by
  unfold updateTaskState
  refine unless_look fun current => unless_ite (fun hsome => ?_) fun hnone => ?_
  · refine hbody.pre fun s hs => hskip s hs.1 ?_
    rw [← hsome, ← hs.2]
  · refine Unless.bind (J := fun _ => I') (p := mark env u (some t)) ?_ fun _ => ?_
    · refine hmark.pre fun s hs => ⟨hs.1, ?_⟩
      have htask : (s.mem u).val.taskState = current := hs.2
      rw [htask]
      simpa using hnone
    · exact hbody.tryFinally (spoiled_mark none) hok hraise

/-- What comes after an operation, when the operation leaves a set that it keeps. -/
theorem unless_mark [Leveled u I] [Lenient (Kept I)] (t : Option TaskState)
    (hE : ∀ e s, I s → E e s) : Unless (Spoiled bad calls) I (fun _ => I) E (mark env u t) :=
  (unless_of_within (spoiled_mark t) (within_mark t)).conseq (fun _ hs => hs) (fun _ _ hs => hs) hE

/-- What is so when the thread of an operation begins. -/
structure Queued (u : Uuid) (k : Nat) (calls : List (Call × Answer)) (Q : List Port → Prop) (r : Record)
    (o : Obj) (s : World) : Prop where
  rests : Rests u s
  ports : Q s.wires
  few : held u s ≤ k
  since : calls <:+ s.log
  row : s.db u = some r
  obj : s.mem u = o

/-- What is so when the record was brought up to date. -/
structure Current (u : Uuid) (k : Nat) (calls : List (Call × Answer)) (Q : List Port → Prop) (r : Record)
    (o : Obj) (s : World) : Prop where
  settled : Settled u k calls Q true false s
  row : s.db u = some r
  obj : s.mem u = catchUp r o

theorem Queued.turn {r : Record} {o : Obj} (h : Queued u k calls Q r o s) (c : Call) :
    Queued u k calls Q r o (s.turn env c) :=
  ⟨leveled_turn c h.rests, h.ports, h.few, h.since.trans (List.suffix_cons ..), h.row, h.obj⟩

theorem Queued.current {r : Record} {o : Obj} (h : Queued u k calls Q r o s) :
    Current u k calls Q r o (s.setMem u (catchUp r)) := by
  have hmem : (s.setMem u (catchUp r)).mem u = catchUp r o := by rw [setMem_mem_self, h.obj]
  refine ⟨⟨h.rests.wired, ⟨r, h.row, h.rests.placed r h.row, fun hhost => ?_⟩, fun _ => ?_, nofun,
    h.ports, h.few, h.since⟩, h.row, hmem⟩
  · rw [hmem] at hhost
    obtain ⟨haddr, hdocker⟩ := h.rests.bare r h.row (hhost.elim id id)
    exact ⟨haddr, by rw [hmem]; exact haddr, hdocker⟩
  · rw [hmem]
    exact h.rests.placed r h.row

/-- Once the record is brought up to date. -/
theorem unless_whenCaughtUp {o : Obj} {op : Prog World Exn Unit} {r : Record}
    (hop : Unless (Spoiled bad calls) (Current u k calls Q r o) (fun _ => Rests u) (fun _ => Rests u)
      op) :
    Unless (Spoiled bad calls) (Queued u k calls Q r o) (fun _ => Rests u) (fun _ => Rests u)
      (whenCaughtUp env u op) := by
  refine Unless.bind (J := fun there s => there = true ∧ Current u k calls Q r o s) ?_ fun there => ?_
  · refine Unless.bind (J := fun current s => current = some r ∧ Queued u k calls Q r o s) ?_
      fun current => ?_
    · refine Unless.bind (J := fun _ => Queued u k calls Q r o) ?_ fun _ =>
        unless_read _ fun s hs => ⟨hs.row, hs⟩
      exact unless_call (fun _ => rfl) (fun s hs _ => hs.turn _) fun s e hs _ => .inr (hs.turn _).rests
    · cases current with
      | none => exact (unless_pure false).pre fun s hs => absurd hs.1 nofun
      | some row =>
          refine Unless.bind (J := fun _ => Current u k calls Q r o) ?_ fun _ =>
            (unless_pure true).pre fun s hs => ⟨rfl, hs⟩
          refine unless_assign fun s hs => ?_
          obtain ⟨hcurrent, h⟩ := hs
          cases hcurrent
          exact h.current
  · cases there with
    | true => exact (unless_onlyIf (fun _ => hop) fun hno => absurd rfl hno).pre fun s hs => hs.2
    | false => exact (unless_ret ()).pre fun s hs => absurd hs.1 nofun

section Start

variable [Leveled u I] [Lenient (Kept I)] (hfew : ∀ s, I s → held u s ≤ k) (hprompt : Prompt env k)

include hfew hprompt

/-- A start comes to no port. -/
theorem within_startInTime : Within (Kept I) (doContainerStart env (defaultDrivers env) u) := by
  refine leveled_updateTaskState (Within.reraising ?_ fun e => within_failInTime hfew hprompt _ e)
  refine (Docker.within_start u).bind fun _ => (within_read _).bind fun now => ?_
  exact (within_inward (inward_setStartedAt _)).bind fun _ => within_saveInward u

end Start

/-! ## Attach -/

/-- A part that keeps a set however it ends. -/
theorem unless_keeps {α : Type} {p : Prog World Exn α} (hspoiled : Within (Kept (Spoiled bad calls)) p)
    (h : Within (Kept I) p) (hE : ∀ e s, I s → E e s) :
    Unless (Spoiled bad calls) I (fun _ => I) E p :=
  (unless_of_within hspoiled h).conseq (fun _ hs => hs) (fun _ _ hs => hs) hE

/-- A call that does nothing here, in a set that outlives it. -/
theorem unless_plain [Leveled u I] (c : Call) (hE : ∀ e s, I s → E e s) :
    Unless (Spoiled bad calls) I (fun _ => I) E (call env c) :=
  unless_call (fun _ => rfl) (fun _ hs _ => leveled_turn c hs)
    fun _ _ hs _ => .inr (hE _ _ (leveled_turn c hs))

theorem Placed.weaken {wires : List Port} (h : Placed wires addresses [])
    (rest : List RequestedNetwork) : Placed wires addresses rest where
  nets := h.nets
  entries := h.entries
  made p hp hmade := by
    rcases h.made p hp hmade with hin | ⟨-, -, net, hmem, -⟩
    · exact .inl hin
    · cases hmem

theorem Settled.with (h : Settled u k calls Q strict clean s) {Q' : List Port → Prop}
    (hQ : Q' s.wires) : Settled u k calls Q' strict clean s :=
  ⟨h.wired, h.row, h.obj, h.clean, hQ, h.few, h.since⟩

/-- Addresses for which there are the ports are assigned to a record that has its host. -/
theorem Settled.assign (h : Settled u k calls (fun wires => Placed wires addresses []) strict clean s)
    (hhosted : Hosted u s) :
    Settled u k calls (fun _ => True) true false (s.setMem u (Obj.setAddresses addresses)) where
  wired := h.wired
  row := by
    obtain ⟨r, hr, hplaced, -⟩ := h.row
    refine ⟨r, hr, hplaced, fun hhost => ?_⟩
    rw [setMem_mem_self] at hhost
    obtain ⟨r', hr', hrow⟩ := hhosted.row
    cases hr.symm.trans hr'
    rcases hhost with hhost | hhost
    · exact absurd hhost hrow
    · exact absurd hhost hhosted.obj
  obj _ := by
    rw [setMem_mem_self]
    exact h.ports
  clean := nofun
  ports := trivial
  few := h.few
  since := h.since

/-- What is known before the network is connected. -/
abbrev Attaching (u : Uuid) (k : Nat) (calls : List (Call × Answer)) (net : RequestedNetwork)
    (addresses : List (NetId × List Addr)) (s : World) : Prop :=
  (Settled u k calls (fun wires => Asks wires net) true false s ∧ Hosted u s) ∧ Lists u addresses s

/-- A port that was brought is none of those that were made, since its network would be listed. -/
theorem Attaching.asked (h : Attaching u k calls net addresses s)
    (hnew : net.network ∉ addresses.map (·.1)) : Asked s.wires net := by
  obtain ⟨⟨h, -⟩, hlists⟩ := h
  have hplaced : Placed s.wires addresses [] := hlists ▸ h.obj (.inl rfl)
  rcases h.ports with hnone | ⟨p, hp, hport, hnet, hkeep⟩
  · exact .inl hnone
  · refine .inr ⟨p, hp, hport, hnet, ?_⟩
    cases hmade : p.zunMade with
    | false => exact hkeep
    | true =>
        rcases hplaced.made p hp hmade with hin | ⟨-, -, net', hmem, -⟩
        · exact absurd (List.mem_map.mpr ⟨_, hin, hnet⟩) hnew
        · cases hmem

theorem Attaching.building (h : Attaching u k calls net addresses s)
    (hnew : net.network ∉ addresses.map (·.1)) : Building u k calls addresses [net] none s := by
  have hasked := h.asked hnew
  obtain ⟨⟨h, hhosted⟩, hlists⟩ := h
  have hplaced : Placed s.wires addresses [] := hlists ▸ h.obj (.inl rfl)
  refine ⟨h.wired, hhosted.row, hhosted.obj, hplaced.weaken _, fun net' hmem => ?_, nofun, h.few, h.since⟩
  rw [List.mem_singleton.mp hmem]
  exact hasked

/-- Addresses that are as they should be are saved, and the record is not behind any more. -/
theorem unless_assignAndSave (hbad : ∀ x before, x.2 ≠ .ok → unrecorded before = true → bad x before) :
    Unless (Spoiled bad calls) (fun s => Building u k calls addresses [] none s ∧ Exposed calls s)
      (fun _ => Settled u k calls (fun _ => True) true false) E (do
        assign u (Obj.setAddresses addresses)
        save env u) := by
  refine Unless.bind (J := fun _ s => Building u k calls addresses [] (some addresses) s ∧
    Exposed calls s) ?_ fun _ => ?_
  · refine unless_assign fun s hs => ?_
    obtain ⟨h, hexposed⟩ := hs
    refine ⟨⟨h.wired, h.row, ?_, h.placed, h.asked, fun l hl => ?_, h.few, h.since⟩, hexposed⟩
    · rw [setMem_mem_self]
      exact h.host
    · cases hl
      rw [setMem_mem_self]
      exact ⟨rfl, rfl⟩
  · refine unless_save (fun s hs => ?_) (fun s row hs hrow _ => ?_) fun s row e hs hrow hanswer => ?_
    · obtain ⟨r, hr, -⟩ := hs.1.row
      exact ⟨r, hr⟩
    · exact (hs.1.congr (level_turn env _ s)).saved hrow
    · exact .inl (spoiled_of_exposed hbad hs.2 hanswer)

/-- The rest of an attach, once its network is known to be new. -/
def connectAndSave (env : Env) (u : Uuid) (net : RequestedNetwork)
    (addresses : List (NetId × List Addr)) : Prog World Exn Unit := do
  let addrs ← Docker.connectContainerToNetwork env u net
  assign u (Obj.setAddresses (addresses ++ [(net.network, addrs)]))
  save env u

/-- A port is made: the saved record is behind until the end. -/
theorem unless_attachMade (hips : ∀ n, env.fixedIps n ≠ [])
    (hbad : ∀ x before, x.2 ≠ .ok → unrecorded before = true → bad x before)
    (hnew : net.network ∉ addresses.map (·.1))
    (hfail : ∀ s c e, Attaching u k calls net addresses s → E e (s.turn env c)) :
    Unless (Spoiled bad calls) (Attaching u k calls net addresses)
      (fun _ => Settled u k calls (fun _ => True) true false) E
      (connectAndSave env u net addresses) := by
  refine Unless.bind (J := fun addrs s =>
    Building u k calls (addresses ++ [(net.network, addrs)]) [] none s ∧ Exposed calls s) ?_
    fun addrs => ?_
  · refine (unless_createOrUpdatePort hips hnew (fun s hs => hs.building hnew)
      fun s c e hs _ _ _ => .inr (hfail s c e hs)).bind fun addrs => ?_
    exact (unless_exposed hbad rfl).bind fun _ => (unless_pure addrs).pre fun _ hs => hs
  · exact unless_assignAndSave hbad

/-- A port is brought: nothing is made that the record would have to name. -/
theorem unless_attachBrought {p : PortId} (hport : net.port = some p)
    (hnew : net.network ∉ addresses.map (·.1))
    (hE : ∀ {Q : List Port → Prop} e s, Settled u k calls Q true false s → E e s) :
    Unless (Spoiled bad calls) (Attaching u k calls net addresses)
      (fun _ => Settled u k calls (fun _ => True) true false) E
      (connectAndSave env u net addresses) := by
  refine Unless.bind (J := fun addrs s => Settled u k calls
    (fun wires => Placed wires (addresses ++ [(net.network, addrs)]) []) true false s ∧ Hosted u s) ?_
    fun addrs => ?_
  · refine Unless.bind (J := fun addrs s => Settled u k calls
      (fun wires => Placed wires (addresses ++ [(net.network, addrs)]) []) true false s ∧ Hosted u s) ?_
      fun addrs => (unless_plain _ fun e s hs => hE e s hs.1).bind fun _ =>
        (unless_pure addrs).pre fun _ hs => hs
    unfold Neutron.createOrUpdatePort
    rw [hport]
    refine Unless.bind (J := fun _ => Attaching u k calls net addresses) ?_ fun _ =>
      unless_look fun found => ?_
    · refine unless_keeps ?_ (leveled_call fun s => level_setDevice p _ s) fun e s hs => hE e s hs.1.1
      exact within_call (fun s hs => hs.mono (List.suffix_cons ..)) fun s hs =>
        hs.mono (List.suffix_cons ..)
    · cases found with
      | none => exact (unless_raise _).pre fun s hs => hE _ s hs.1.1.1
      | some port =>
          refine (unless_pure _).pre fun s hs => ?_
          obtain ⟨h, hfound⟩ := hs
          have hid : port.id = p := by simpa using List.find?_some hfound
          have hbound := (h.building hnew).bind (List.mem_of_find?_eq_some hfound)
            (by rw [hport, hid]) hnew
          exact ⟨h.1.1.with hbound.placed, h.1.2⟩
  · refine Unless.bind (J := fun _ => Settled u k calls (fun _ => True) true false) ?_ fun _ => ?_
    · exact unless_assign fun s hs => hs.1.assign hs.2
    · exact unless_keeps (within_save u) (within_saveInward u) fun e s hs => hE e s hs

/-- The driver's attach. -/
theorem unless_networkAttach (hips : ∀ n, env.fixedIps n ≠ []) (r : Record) :
    Unless (Spoiled (harmful r (.attach net)) calls)
      (fun s => Settled u k calls (fun wires => Asks wires net) true false s ∧ Hosted u s)
      (fun _ => Settled u k calls (fun _ => True) true false)
      (fun _ => Settled u k calls (fun _ => True) false false) (Docker.networkAttach env u net) := by
  have hE {Q : List Port → Prop} (s : World) (hs : Settled u k calls Q true false s) :
      Settled u k calls (fun _ => True) false false s := hs.weaken fun _ _ => trivial
  refine Unless.bind (unless_keeps (I := fun s => Settled u k calls (fun wires => Asks wires net) true
    false s ∧ Hosted u s) ?_ ?_ fun _ s hs => hE s hs.1) fun _ => ?_
  · exact (within_read _).bind fun _ => (within_raise _).onlyIf
  · exact (within_read _).bind fun _ => (within_raise _).onlyIf
  refine (unless_plain _ fun _ s hs => hE s hs.1).bind fun _ => unless_look fun addresses => ?_
  refine Unless.bind (J := fun _ s => Attaching u k calls net addresses s ∧
    addresses.any (·.1 = net.network) = false) ?_ fun _ => ?_
  · refine unless_onlyIf (fun _ => (unless_raise _).pre fun s hs => hE s hs.1.1) fun hno s hs => ?_
    exact ⟨hs, Bool.eq_false_iff.mpr hno⟩
  refine (unless_plain _ fun _ s hs => hE s hs.1.1.1).bind fun _ => ?_
  show Unless _ _ _ _ (connectAndSave env u net addresses)
  cases hany : addresses.any (·.1 = net.network) with
  | true =>
      refine ⟨?_, fun s hs => Bool.noConfusion hs.2⟩
      refine (Docker.within_connectContainerToNetwork u net).bind fun _ => ?_
      exact (within_modify fun _ hs => hs).bind fun _ => within_save u
  | false =>
      have hnew : net.network ∉ addresses.map (·.1) := by
        intro hin
        obtain ⟨entry, hentry, hnet⟩ := List.mem_map.mp hin
        have htrue : addresses.any (·.1 = net.network) = true :=
          List.any_eq_true.mpr ⟨entry, hentry, decide_eq_true hnet⟩
        cases hany.symm.trans htrue
      cases hport : net.port with
      | none =>
          refine (unless_attachMade hips (fun x before hx hun => ⟨hx, hport, hun⟩) hnew ?_).pre
            fun s hs => hs.1
          exact fun s c e hs => hE _ (hs.1.1.congr (level_turn env c s))
      | some p => exact (unless_attachBrought hport hnew fun _ s hs => hE s hs).pre fun s hs => hs.1

/-- `_do_network_attach`. -/
theorem unless_doNetworkAttach (hips : ∀ n, env.fixedIps n ≠ []) (r : Record) :
    Unless (Spoiled (harmful r (.attach net)) calls)
      (fun s => Settled u k calls (fun wires => Asks wires net) true false s ∧ Hosted u s)
      (fun _ => Rests u) (fun _ => Rests u) (doNetworkAttach env u net) := by
  refine (unless_updateTaskState (fun s hs _ => hs) ?_ (unless_networkAttach (k := k) hips r)
    (fun _ => ?_) fun _ => ?_).conseq (fun _ hs => hs) (fun _ _ hs => hs.rests) fun _ _ hs => hs.rests
  · exact (unless_mark _ fun _ s hs => hs.1.weaken fun _ _ => trivial).pre fun _ hs => hs.1
  · exact unless_mark none fun _ s hs => hs.weaken fun _ _ => trivial
  · exact unless_mark none fun _ _ hs => hs

end DockerPorts

end Zun
