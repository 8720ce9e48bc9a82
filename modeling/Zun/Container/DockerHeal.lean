import Mathlib.Data.List.Dedup
import Zun.Container.DockerSync
import Zun.Effect.Traced

/-!
# Records that docker does not hold

One pass of the state sync of the docker driver: `sync_container_state` of the manager, and under it
`update_containers_states`, `list` and `heal_with_rebuilding_container`.  Here the pass is a program that runs by
itself.  Every call on the database may fail, and what fails for one record may keep the pass from the others.
-/

namespace Zun

open Effect Prog

namespace DockerHeal

open DockerSync (Row Rows Listed locals nonExistent inDocker byId ids populate skipped)

/-! ## The model -/

inductive Call where
  | listDocker
  | listByHost
  | listContainers
  | save (u : Uuid)
  | watchWiring (u : Uuid)
  | actionStart (u : Uuid)
deriving DecidableEq

/-- The record that a call is about. -/
def Call.about : Call → Option Uuid
  | .listDocker | .listByHost | .listContainers => none
  | .save u | .watchWiring u | .actionStart u => some u

inductive Failure where
  | typeError
  | other (code : Nat)
deriving DecidableEq

structure State where
  rows : Rows
  /-- `status_reason`, where the pass has set it. -/
  reasons : Uuid → Option String := fun _ => none
  /-- The rebuilds that an action was started for. -/
  started : List Uuid := []
  /-- The rebuilds that the manager has taken, with `run`. -/
  handed : List (Uuid × Bool) := []

structure Env where
  host : String
  /-- What docker answers. -/
  docker : List Listed
  /-- `CONF.docker.verify_wiring`. -/
  verifyWiring : Bool := true
  /-- The order of a set of container ids. -/
  order : List Nat → List Nat := id
  order_perm : ∀ l, (order l).Perm l := by exact fun l => List.Perm.refl l

abbrev Run (α : Type) := Prog (Log State Call Failure) Failure α

abbrev Refusals := Nat → Call → Option Failure

variable (env : Env) (refuse : Refusals)

def ask (call : Call) : Run Unit := consult refuse call id

/-- The records that meet a condition. -/
def listRows (rows : Rows) (p : Uuid → Row → Bool) : List (Uuid × Row) := ({ rows } : DockerSync.State).list p

def State.update (u : Uuid) (f : Row → Row) (s : State) : State :=
  match s.rows.lookup u with
  | none => s
  | some r => { s with rows := s.rows.insert u (f r) }

/-- `container.save`. -/
def save (u : Uuid) (f : Row → Row) : Run Unit := consult refuse (.save u) (State.update u f)

/-- `container_rebuild` of the manager.  It has no default for `run`. -/
def containerRebuild (u : Uuid) : Option Bool → Run Unit
  | none => raise .typeError
  | some run => change fun s => { s with handed := (u, run) :: s.handed }

def noSuchContainer (id : Nat) : String := "No such container: " ++ toString id ++ " in docker"

/-- What is saved of a record that is not rebuilt. -/
def State.markMissing (u : Uuid) (id : Nat) (s : State) : State :=
  let s' := s.update u fun r => { r with status := .error }
  { s' with reasons := Function.update s'.reasons u (some (noSuchContainer id)) }

/-- `heal_with_rebuilding_container`. -/
def healWithRebuildingContainer (x : Uuid × Row) : Run Unit :=
  match x.2.containerId with
  | none => pure ()
  | some id =>
      swallow
        (if x.2.autoHeal = true ∧ x.2.status ∈ validStates .rebuild then do
          consult refuse (.actionStart x.1) fun s => { s with started := x.1 :: s.started }
          containerRebuild x.1 none
        else consult refuse (.save x.1) (State.markMissing x.1 id))

/-- The loop over the ids that are in both maps. -/
def syncOne (containers localContainers : List (Uuid × Row)) (cid : Nat) : Run Unit :=
  match byId containers cid, byId localContainers cid with
  | some c, some l => do
      onlyIf (l.2.status = .running ∧ env.verifyWiring = true) (ask refuse (.watchWiring c.1))
      onlyIf (c.2.status ≠ l.2.status) (save refuse c.1 fun r => { r with status := l.2.status })
      onlyIf (c.2.host ≠ some env.host) (save refuse c.1 fun r => { r with host := some env.host })
  | _, _ => pure ()

/-- The loop over the records that docker has nothing for. -/
def settleOne (x : Uuid × Row) : Run Unit :=
  onlyIf (x.2.host = some env.host)
    (if x.2.autoRemove = true then save refuse x.1 fun r => { r with status := .deleted }
    else healWithRebuildingContainer refuse x)

/-- `Container.list_by_host`. -/
def listByHost (rows : Rows) : List (Uuid × Row) := listRows rows fun _ r => r.host = some env.host

/-- `_get_local_containers`: the records of the host, and those of the containers of docker. -/
def getLocalContainers (rows : Rows) : List (Uuid × Row) :=
  listRows rows fun u r => r.host = some env.host || u ∈ env.docker.map (·.uuid)

/-- The two loops of `update_containers_states`. -/
def settleAll (containers rows : List (Uuid × Row)) : Run Unit := do
  let localContainers := locals env.docker rows
  forEach (env.order ((ids containers).dedup.filter (· ∈ ids localContainers)))
    (syncOne env refuse containers localContainers)
  forEach (nonExistent env.docker rows) (settleOne env refuse)

/-- `update_containers_states`. -/
def updateContainersStates (containers : List (Uuid × Row)) : Run Unit := do
  ask refuse .listDocker
  ask refuse .listByHost
  ask refuse .listContainers
  let rows ← look fun s => getLocalContainers env s.rows
  if rows = [] then pure () else settleAll env refuse containers rows

/-- `sync_container_state`. -/
def syncContainerState : Run Unit := do
  ask refuse .listByHost
  let containers ← look fun s => listByHost env s.rows
  updateContainersStates env refuse containers

/-! ## What is asked of a pass -/

/-- The records, no two of which have one container id. -/
structure Stored where
  rows : Rows
  distinct : DockerSync.Distinct { rows }

/-- A record of this host that docker does not hold, that no operation owns and that is not done with. -/
structure Missing (rows : Rows) (u : Uuid) (r : Row) : Prop where
  row : rows.lookup u = some r
  host : r.host = some env.host
  free : ¬ r.Owned
  kept : r.status ≠ .deleted
  gone : inDocker env.docker r = none

def HasStatus (s : State) (u : Uuid) (status : Status) : Prop :=
  ∃ row, s.rows.lookup u = some row ∧ row.status = status

/-- A rebuild is what the record asks for. -/
def Row.heals (r : Row) : Prop := r.autoHeal = true ∧ r.status ∈ validStates .rebuild

/-- What a record asks for. -/
def Outcome (s : State) (u : Uuid) (r : Row) : Prop :=
  (r.autoRemove = true → HasStatus s u .deleted) ∧
    (r.autoRemove = false → Row.heals r → ∃ run, (u, run) ∈ s.handed) ∧
    (r.autoRemove = false → ¬ Row.heals r → HasStatus s u .error)

/-- The lists are answered. -/
def Lists : Prop := ∀ n call, call.about = none → refuse n call = none

/-- The calls about a record are answered. -/
def Answers (u : Uuid) : Prop := ∀ n call, call.about = some u → refuse n call = none

/-- Each missing record whose own calls are answered gets what it asks for, whatever becomes of the others. -/
def Dealt (stored : Stored) : Prop :=
  ∀ refuse, Lists refuse → ∀ u r, Missing env stored.rows u r → Answers refuse u →
    Outcome (syncContainerState env refuse ⟨{ rows := stored.rows }, []⟩).2.state u r

/-! ## When that is so -/

/-- The record is what it asks to be. -/
def Settled (r : Row) : Prop := r.autoRemove = false ∧ r.status = .error ∧ r.autoHeal = false

/-- The pass has something for the record, and that is what it asks for. -/
def Treatable (r : Row) : Prop := r.autoRemove = true ∨ r.containerId ≠ none ∧ ¬ Row.heals r

/-- The record as `list` has it, with the state of its container. -/
def seen (r : Row) : Row :=
  if skipped r.status then r
  else
    match inDocker env.docker r with
    | none => r
    | some c => populate r c.state

/-- Neither a call on the wiring of a container is made nor is its record saved. -/
def Calm (r : Row) : Prop :=
  (seen env r).status = r.status ∧ ¬ ((seen env r).status = .running ∧ env.verifyWiring = true)

/-- The pass comes to a missing record without a call that it could end with. -/
structure Reached (rows : Rows) (u : Uuid) (r : Row) : Prop where
  calm : ∀ v row, v ≠ u → rows.lookup v = some row → row.host = some env.host → row.containerId ≠ none →
    Calm env row
  first : ∃ before after, nonExistent env.docker (getLocalContainers env rows) = before ++ (u, r) :: after ∧
    ∀ x ∈ before, x.2.host = some env.host → x.2.autoRemove = false

variable {env refuse} {rows : Rows} {stored : Stored} {u : Uuid} {r : Row}

/-! ### The lists -/

theorem mem_listRows {p : Uuid → Row → Bool} {x : Uuid × Row} :
    x ∈ listRows rows p ↔ rows.lookup x.1 = some x.2 ∧ p x.1 x.2 = true := DockerSync.mem_list

theorem locals_eq (l : List (Uuid × Row)) : locals env.docker l = l.map fun x => (x.1, seen env x.2) := by
  refine List.map_congr_left fun x _ => ?_
  unfold seen
  split
  · rfl
  · cases inDocker env.docker x.2 with
    | none => rfl
    | some c => rfl

theorem seen_containerId (r : Row) : (seen env r).containerId = r.containerId := by
  unfold seen
  split
  · rfl
  · split
    · rfl
    · exact DockerSync.populate_containerId _ _

theorem seen_of_gone (h : inDocker env.docker r = none) : seen env r = r := by
  unfold seen
  rw [h]
  exact ite_self r

theorem not_skipped (hfree : ¬ r.Owned) (hkept : r.status ≠ .deleted) : skipped r.status = false := by
  unfold DockerSync.Row.Owned at hfree
  unfold skipped
  simp only [List.mem_cons, List.not_mem_nil, or_false, not_or, decide_eq_false_iff_not] at hfree ⊢
  exact ⟨hfree.2.1, hfree.2.2.2, hkept⟩

theorem Missing.mem_getLocalContainers (h : Missing env rows u r) : (u, r) ∈ getLocalContainers env rows :=
  mem_listRows.mpr ⟨h.row, by simp [h.host]⟩

theorem Missing.mem_nonExistent (h : Missing env rows u r) :
    (u, r) ∈ nonExistent env.docker (getLocalContainers env rows) :=
  List.mem_filter.mpr ⟨h.mem_getLocalContainers, decide_eq_true ⟨not_skipped h.free h.kept, h.gone⟩⟩

theorem lookup_of_nonExistent {x : Uuid × Row}
    (h : x ∈ nonExistent env.docker (getLocalContainers env rows)) : rows.lookup x.1 = some x.2 :=
  (mem_listRows.mp (List.mem_of_mem_filter h)).1

/-- No record is listed twice. -/
theorem nodup_nonExistent (rows : Rows) :
    ((nonExistent env.docker (getLocalContainers env rows)).map (·.1)).Nodup := by
  have hsub : ((nonExistent env.docker (getLocalContainers env rows)).map (·.1)).Sublist
      ((getLocalContainers env rows).map (·.1)) := List.filter_sublist.map _
  refine List.Nodup.sublist hsub ?_
  unfold getLocalContainers listRows DockerSync.State.list
  rw [List.map_map]
  exact List.Nodup.sublist (List.filter_sublist.map _) rows.nodupKeys

theorem byId_of_mem {l : List (Uuid × Row)} {x : Uuid × Row} {id : Nat} (hx : x ∈ l)
    (hid : x.2.containerId = some id) : ∃ y, byId l id = some y := by
  refine Option.isSome_iff_exists.mp (List.find?_isSome.mpr ⟨x, List.mem_reverse.mpr hx, ?_⟩)
  exact decide_eq_true hid

/-- The two copies that a turn of the first loop works on are of one record of this host. -/
theorem copies_of_byId {cid : Nat} {c l : Uuid × Row} (hc : byId (listByHost env stored.rows) cid = some c)
    (hl : byId (locals env.docker (getLocalContainers env stored.rows)) cid = some l) :
    stored.rows.lookup c.1 = some c.2 ∧ c.2.host = some env.host ∧ c.2.containerId = some cid ∧
      l = (c.1, seen env c.2) := by
  obtain ⟨hcmem, hcid⟩ := DockerSync.mem_of_byId hc
  obtain ⟨hlmem, hlid⟩ := DockerSync.mem_of_byId hl
  obtain ⟨hcrow, hchost⟩ := mem_listRows.mp hcmem
  rw [locals_eq] at hlmem
  obtain ⟨x, hx, rfl⟩ := List.mem_map.mp hlmem
  have hxrow : stored.rows.lookup x.1 = some x.2 := (mem_listRows.mp hx).1
  have hxid : x.2.containerId = some cid := (seen_containerId x.2).symm.trans hlid
  have hsame : c.1 = x.1 := stored.distinct c.1 x.1 c.2 x.2 cid hcrow hxrow hcid hxid
  have hrow : c.2 = x.2 := Option.some.inj (hcrow.symm.trans (hsame ▸ hxrow))
  exact ⟨hcrow, of_decide_eq_true hchost, hcid, by rw [hsame, hrow]⟩

/-! ### What a pass leaves alone -/

/-- The record is left alone, and no rebuild is handed over. -/
structure Spares (u : Uuid) (w w' : Log State Call Failure) : Prop where
  row : w'.state.rows.lookup u = w.state.rows.lookup u
  handed : w'.state.handed = w.state.handed

instance (u : Uuid) : IsPreorder (Log State Call Failure) (Spares u) where
  refl _ := ⟨rfl, rfl⟩
  trans _ _ _ h h' := ⟨h'.row.trans h.row, h'.handed.trans h.handed⟩

theorem update_handed (v : Uuid) (f : Row → Row) (s : State) : (s.update v f).handed = s.handed := by
  unfold State.update
  split <;> rfl

theorem lookup_update_ne {v : Uuid} (h : v ≠ u) (f : Row → Row) (s : State) :
    (s.update v f).rows.lookup u = s.rows.lookup u := by
  unfold State.update
  split
  · rfl
  · exact AList.lookup_insert_ne h.symm

theorem lookup_update (f : Row → Row) {s : State} (h : s.rows.lookup u = some r) :
    (s.update u f).rows.lookup u = some (f r) := by
  unfold State.update
  rw [h]
  exact AList.lookup_insert _

theorem spares_consult {call : Call} {effect : State → State}
    (hrow : ∀ s, (effect s).rows.lookup u = s.rows.lookup u) (hhanded : ∀ s, (effect s).handed = s.handed) :
    Within (Spares u) (consult refuse call effect) :=
  within_of_wp fun w => wp_consult
    (fun _ _ _ hw' => ⟨congrArg (·.rows.lookup u) hw', congrArg State.handed hw'⟩)
    fun _ _ hw' => ⟨hw' ▸ hrow w.state, hw' ▸ hhanded w.state⟩

theorem spares_ask (call : Call) : Within (Spares u) (ask refuse call) :=
  spares_consult (fun _ => rfl) fun _ => rfl

theorem spares_save {v : Uuid} (h : v ≠ u) (f : Row → Row) : Within (Spares u) (save refuse v f) :=
  spares_consult (lookup_update_ne h f) (update_handed v f)

theorem spares_markMissing {v : Uuid} (h : v ≠ u) (id : Nat) :
    Within (Spares u) (consult refuse (.save v) (State.markMissing v id)) :=
  spares_consult (fun s => lookup_update_ne h _ s) fun s => update_handed v _ s

/-- A rebuild is not handed over. -/
theorem spares_rebuild (v : Uuid) : Within (Spares u)
    (consult refuse (.actionStart v) (fun s => { s with started := v :: s.started }) >>= fun _ =>
      containerRebuild v none) := by
  refine Within.bind ?_ fun _ => within_raise _
  exact spares_consult (fun _ => rfl) fun _ => rfl

theorem spares_heal {x : Uuid × Row} (h : x.1 = u → x.2.containerId ≠ none → Row.heals x.2) :
    Within (Spares u) (healWithRebuildingContainer refuse x) := by
  unfold healWithRebuildingContainer
  cases hid : x.2.containerId with
  | none => exact within_pure ()
  | some id =>
      refine Within.swallow ?_
      split
      · exact spares_rebuild x.1
      · rename_i hheals
        exact spares_markMissing (fun hu => hheals (h hu (by rw [hid]; exact Option.some_ne_none id))) id

/-- The second loop leaves alone what is not its turn, and what it has nothing for. -/
theorem spares_settleOne {x : Uuid × Row} (h : x.1 = u → ¬ Treatable x.2) :
    Within (Spares u) (settleOne env refuse x) := by
  unfold settleOne
  refine Within.onlyIf ?_
  split
  · rename_i hremove
    exact spares_save (fun hu => h hu (.inl hremove)) _
  · exact spares_heal fun hu hid => not_not.mp fun hheals => h hu (.inr ⟨hid, hheals⟩)

/-- The first loop leaves alone what docker does not hold. -/
theorem spares_syncOne (hmissing : Missing env stored.rows u r) (cid : Nat) :
    Within (Spares u) (syncOne env refuse (listByHost env stored.rows)
      (locals env.docker (getLocalContainers env stored.rows)) cid) := by
  unfold syncOne
  split
  · rename_i c l hc hl
    obtain ⟨hcrow, hchost, -, rfl⟩ := copies_of_byId hc hl
    refine (Within.onlyIf (spares_ask _)).bind fun _ => ?_
    by_cases hcu : c.1 = u
    · have hsame : c.2 = r := Option.some.inj (hcrow.symm.trans (hcu ▸ hmissing.row))
      have hstatus : ¬ c.2.status ≠ (seen env c.2).status := by
        rw [hsame, seen_of_gone hmissing.gone]
        exact fun hne => hne rfl
      unfold onlyIf
      rw [if_neg hstatus, if_neg (not_not.mpr hchost)]
      exact within_ret ()
    · exact (Within.onlyIf (spares_save hcu _)).bind fun _ => Within.onlyIf (spares_save hcu _)
  · exact within_pure ()

/-! ### The pass -/

theorem wp_answered {call : Call} {effect : State → State} {w : Log State Call Failure}
    {Q : Result Failure Unit → Log State Call Failure → Prop} (hanswer : ∀ n, refuse n call = none)
    (h : ∀ w', w'.state = effect w.state → Q (.ok ()) w') : wp (consult refuse call effect) Q w := by
  refine wp_consult (fun f _ hcall _ => ?_) fun w' _ hw' => h w' hw'
  cases (hanswer _).symm.trans hcall

/-- When the lists are answered it is the two loops that decide. -/
theorem wp_pass (hlists : Lists refuse) (hmissing : Missing env stored.rows u r)
    {Q : Result Failure Unit → Log State Call Failure → Prop}
    (h : ∀ w, w.state = { rows := stored.rows } →
      wp (settleAll env refuse (listByHost env stored.rows) (getLocalContainers env stored.rows)) Q w) :
    wp (syncContainerState env refuse) Q ⟨{ rows := stored.rows }, []⟩ := by
  unfold syncContainerState ask
  rw [wp_bind]
  refine wp_answered (fun n => hlists n _ rfl) fun w₁ hw₁ => ?_
  rw [seqPost_ok, wp_bind, wp_look, seqPost_ok]
  unfold updateContainersStates ask
  rw [wp_bind]
  refine wp_answered (fun n => hlists n _ rfl) fun w₂ hw₂ => ?_
  rw [seqPost_ok, wp_bind]
  refine wp_answered (fun n => hlists n _ rfl) fun w₃ hw₃ => ?_
  rw [seqPost_ok, wp_bind]
  refine wp_answered (fun n => hlists n _ rfl) fun w₄ hw₄ => ?_
  have hstart : w₁.state = { rows := stored.rows } := hw₁
  have hend : w₄.state = { rows := stored.rows } := hw₄.trans (hw₃.trans (hw₂.trans hstart))
  rw [seqPost_ok, wp_bind, wp_look, seqPost_ok, hstart, hend,
    if_neg (List.ne_nil_of_mem hmissing.mem_getLocalContainers)]
  exact h w₄ hend

theorem settled_of_untouched {s : State} (h : Outcome s u r) (hrow : s.rows.lookup u = some r)
    (hhanded : s.handed = []) (hkept : r.status ≠ .deleted) : Settled r := by
  obtain ⟨hdeleted, hrebuilt, herror⟩ := h
  have hremove : r.autoRemove = false := by
    refine Bool.eq_false_iff.mpr fun hremove => ?_
    obtain ⟨row, hlookup, hstatus⟩ := hdeleted hremove
    cases hrow.symm.trans hlookup
    exact hkept hstatus
  have hheals : ¬ Row.heals r := by
    intro hheals
    obtain ⟨run, hmem⟩ := hrebuilt hremove hheals
    rw [hhanded] at hmem
    exact List.not_mem_nil hmem
  obtain ⟨row, hlookup, hstatus⟩ := herror hremove hheals
  cases hrow.symm.trans hlookup
  refine ⟨hremove, hstatus, Bool.eq_false_iff.mpr fun hheal => hheals ⟨hheal, ?_⟩⟩
  rw [hstatus]
  decide

/-! ### When a record is not reached -/

theorem spares_first (hmissing : Missing env stored.rows u r) (cids : List Nat) :
    Within (Spares u) (forEach cids (syncOne env refuse (listByHost env stored.rows)
      (locals env.docker (getLocalContainers env stored.rows)))) :=
  within_forEach fun cid _ => spares_syncOne hmissing cid

/-- Of what is listed, only the record itself has its uuid. -/
theorem Missing.eq_of_nonExistent (hmissing : Missing env stored.rows u r) {x : Uuid × Row}
    (hx : x ∈ nonExistent env.docker (getLocalContainers env stored.rows)) (hu : x.1 = u) : x = (u, r) := by
  have hrow := lookup_of_nonExistent hx
  rw [hu, hmissing.row] at hrow
  exact Prod.ext hu (Option.some.inj hrow).symm

theorem spares_of_untreatable (hmissing : Missing env stored.rows u r) (htreat : ¬ Treatable r) :
    Within (Spares u)
      (settleAll env refuse (listByHost env stored.rows) (getLocalContainers env stored.rows)) := by
  refine (spares_first hmissing _).bind fun _ => within_forEach fun x hx => ?_
  refine spares_settleOne fun hu => ?_
  rw [hmissing.eq_of_nonExistent hx hu]
  exact htreat

/-- Every call about another record is refused. -/
def against (u : Uuid) : Refusals := fun _ call =>
  if call.about = none ∨ call.about = some u then none else some (.other 0)

theorem lists_against (u : Uuid) : Lists (against u) := fun _ _ h => if_pos (.inl h)

theorem answers_against (u : Uuid) : Answers (against u) u := fun _ _ h => if_pos (.inr h)

theorem raises_against {call : Call} {v : Uuid} (effect : State → State) (h : call.about = some v) (hne : v ≠ u) :
    Raises (consult (against u) call effect) := by
  intro w a w' hrun
  have hrefuse : against u w.log.length call = some (.other 0) := by
    refine if_neg ?_
    rw [h]
    rintro (hnone | hsome)
    · cases hnone
    · exact hne (Option.some.inj hsome)
  rw [consult_some hrefuse] at hrun
  cases hrun

theorem raises_syncOne {cid : Nat} {c l : Uuid × Row} (hc : byId (listByHost env stored.rows) cid = some c)
    (hl : byId (locals env.docker (getLocalContainers env stored.rows)) cid = some l) (hne : c.1 ≠ u)
    (hcalm : ¬ Calm env c.2) :
    Raises (syncOne env (against u) (listByHost env stored.rows)
      (locals env.docker (getLocalContainers env stored.rows)) cid) := by
  obtain ⟨-, -, -, rfl⟩ := copies_of_byId hc hl
  unfold syncOne
  rw [hc, hl]
  by_cases hrunning : (seen env c.2).status = .running ∧ env.verifyWiring = true
  · refine Raises.then ?_
    unfold onlyIf
    rw [if_pos hrunning]
    exact raises_against id rfl hne
  · refine Raises.bind fun _ => Raises.then ?_
    have hstatus : c.2.status ≠ (seen env c.2).status := fun hsame => hcalm ⟨hsame.symm, hrunning⟩
    unfold onlyIf
    rw [if_pos hstatus]
    exact raises_against _ rfl hne

/-- A record that the first loop makes a call for may end the pass. -/
theorem spares_of_call (hmissing : Missing env stored.rows u r) {v : Uuid} {row : Row} (hne : v ≠ u)
    (hrow : stored.rows.lookup v = some row) (hhost : row.host = some env.host) (hid : row.containerId ≠ none)
    (hcalm : ¬ Calm env row) :
    Within (Spares u)
      (settleAll env (against u) (listByHost env stored.rows) (getLocalContainers env stored.rows)) := by
  obtain ⟨cid, hcid⟩ := Option.ne_none_iff_exists'.mp hid
  have hlisted : (v, row) ∈ listByHost env stored.rows := mem_listRows.mpr ⟨hrow, decide_eq_true hhost⟩
  have hlocal : (v, seen env row) ∈ locals env.docker (getLocalContainers env stored.rows) := by
    rw [locals_eq]
    exact List.mem_map.mpr ⟨(v, row), mem_listRows.mpr ⟨hrow, by simp [hhost]⟩, rfl⟩
  have hlocalId : (seen env row).containerId = some cid := (seen_containerId row).trans hcid
  obtain ⟨c, hc⟩ := byId_of_mem hlisted hcid
  obtain ⟨l, hl⟩ := byId_of_mem hlocal hlocalId
  obtain ⟨hcrow, -, hccid, -⟩ := copies_of_byId hc hl
  have hcv : c.1 = v := stored.distinct c.1 v c.2 row cid hcrow hrow hccid hcid
  have hsame : c.2 = row := Option.some.inj (hcrow.symm.trans (hcv ▸ hrow))
  have hmem : cid ∈ env.order ((ids (listByHost env stored.rows)).dedup.filter
      (· ∈ ids (locals env.docker (getLocalContainers env stored.rows)))) := by
    have hids : cid ∈ ids (listByHost env stored.rows) := List.mem_filterMap.mpr ⟨(v, row), hlisted, hcid⟩
    have hlocals : cid ∈ ids (locals env.docker (getLocalContainers env stored.rows)) :=
      List.mem_filterMap.mpr ⟨(v, seen env row), hlocal, hlocalId⟩
    exact (env.order_perm _).mem_iff.mpr
      (List.mem_filter.mpr ⟨List.mem_dedup.mpr hids, decide_eq_true hlocals⟩)
  exact (raises_forEach (raises_syncOne hc hl (hcv ▸ hne) (hsame ▸ hcalm)) hmem).within (spares_first hmissing _)

/-- A record that is to be marked deleted, and comes before, may end the pass. -/
theorem spares_of_removal (hmissing : Missing env stored.rows u r) {before after : List (Uuid × Row)}
    {x : Uuid × Row}
    (hsplit : nonExistent env.docker (getLocalContainers env stored.rows) = before ++ (u, r) :: after)
    (hfirst : (u, r) ∉ before) (hx : x ∈ before) (hhost : x.2.host = some env.host)
    (hremove : x.2.autoRemove = true) :
    Within (Spares u)
      (settleAll env (against u) (listByHost env stored.rows) (getLocalContainers env stored.rows)) := by
  have hother : ∀ y ∈ before, y.1 ≠ u := by
    intro y hy hu
    have hlisted : y ∈ nonExistent env.docker (getLocalContainers env stored.rows) :=
      hsplit ▸ List.mem_append_left _ hy
    exact hfirst (hmissing.eq_of_nonExistent hlisted hu ▸ hy)
  have hraises : Raises (settleOne env (against u) x) := by
    unfold settleOne onlyIf
    rw [if_pos hhost, if_pos hremove]
    exact raises_against _ rfl (hother x hx)
  unfold settleAll
  rw [hsplit, forEach_append]
  refine (spares_first hmissing _).bind fun _ => (raises_forEach hraises hx).within ?_
  exact within_forEach fun y hy => spares_settleOne fun hu => absurd hu (hother y hy)

theorem Dealt.settled (hdealt : Dealt env stored) (hmissing : Missing env stored.rows u r) (hlists : Lists refuse)
    (hanswers : Answers refuse u) (hspares : Within (Spares u)
      (settleAll env refuse (listByHost env stored.rows) (getLocalContainers env stored.rows))) : Settled r := by
  have hend : wp (syncContainerState env refuse)
      (fun _ w => w.state.rows.lookup u = some r ∧ w.state.handed = []) ⟨{ rows := stored.rows }, []⟩ := by
    refine wp_pass hlists hmissing fun w hw => wp_mono (hspares.wp w) ?_
    rintro - w' ⟨hrow, hhanded⟩
    rw [hw] at hrow hhanded
    exact ⟨hrow.trans hmissing.row, hhanded⟩
  exact settled_of_untouched (hdealt refuse hlists u r hmissing hanswers) hend.1 hend.2 hmissing.kept

theorem reached_of_dealt (hdealt : Dealt env stored) (hmissing : Missing env stored.rows u r)
    (hsettled : ¬ Settled r) : Reached env stored.rows u r := by
  have hagainst := hdealt.settled hmissing (lists_against u) (answers_against u)
  refine ⟨fun v row hne hrow hhost hid => ?_, ?_⟩
  · by_contra hcalm
    exact hsettled (hagainst (spares_of_call hmissing hne hrow hhost hid hcalm))
  · obtain ⟨before, after, hsplit, hfirst⟩ := List.eq_append_cons_of_mem hmissing.mem_nonExistent
    refine ⟨before, after, hsplit, fun x hx hhost => Bool.eq_false_iff.mpr fun hremove => ?_⟩
    exact hsettled (hagainst (spares_of_removal hmissing hsplit hfirst hx hhost hremove))

/-! ### When a record is reached -/

theorem outcome_of_settled {s : State} (hsettled : Settled r) (h : HasStatus s u .error) : Outcome s u r := by
  obtain ⟨hremove, -, hheal⟩ := hsettled
  refine ⟨fun hremove' => ?_, fun _ hheals => ?_, fun _ _ => h⟩
  · cases hremove.symm.trans hremove'
  · cases hheal.symm.trans hheals.1

theorem keeps_status {α : Type} {status : Status} {p : Run α} (h : Within (Spares u) p) :
    Within (Kept fun w => HasStatus w.state u status) p := by
  rintro w ⟨row, hrow, hstatus⟩
  exact ⟨row, (h w).row.trans hrow, hstatus⟩

theorem keeps_outcome {α : Type} {p : Run α} (h : Within (Spares u) p) :
    Within (Kept fun w => Outcome w.state u r) p := by
  rintro w ⟨hdeleted, hrebuilt, herror⟩
  unfold Outcome HasStatus
  rw [(h w).row, (h w).handed]
  exact ⟨hdeleted, hrebuilt, herror⟩

theorem hasStatus_markMissing {s : State} (id : Nat) (h : s.rows.lookup u = some r) :
    HasStatus (s.markMissing u id) u .error := ⟨_, lookup_update _ h, rfl⟩

/-- A record in `Error` that asks for nothing else stays in it. -/
theorem keeps_settled (hsettled : Settled r) :
    Within (Kept fun w => HasStatus w.state u .error) (settleOne env refuse (u, r)) := by
  obtain ⟨hremove, -, hheal⟩ := hsettled
  have hheals : ¬ (r.autoHeal = true ∧ r.status ∈ validStates .rebuild) := by
    rintro ⟨hheal', -⟩
    cases hheal.symm.trans hheal'
  unfold settleOne healWithRebuildingContainer
  refine Within.onlyIf ?_
  rw [if_neg (Bool.eq_false_iff.mp hremove)]
  cases hid : r.containerId with
  | none => exact within_pure ()
  | some id =>
      refine Within.swallow ?_
      rw [if_neg hheals]
      refine within_of_wp fun w => wp_consult (fun _ w' _ hw' hw => ?_) fun w' _ hw' hw => ?_
      · show HasStatus w'.state u .error
        rw [hw']
        exact hw
      · obtain ⟨row, hrow, -⟩ := hw
        show HasStatus w'.state u .error
        rw [hw']
        exact hasStatus_markMissing id hrow

theorem outcome_settled (hlists : Lists refuse) (hmissing : Missing env stored.rows u r) (hsettled : Settled r) :
    wp (syncContainerState env refuse) (fun _ w => Outcome w.state u r) ⟨{ rows := stored.rows }, []⟩ := by
  refine wp_pass hlists hmissing fun w hw => ?_
  have hstart : HasStatus w.state u .error := by
    rw [hw]
    exact ⟨r, hmissing.row, hsettled.2.1⟩
  have hkept : Within (Kept fun w => HasStatus w.state u .error)
      (settleAll env refuse (listByHost env stored.rows) (getLocalContainers env stored.rows)) := by
    refine (keeps_status (spares_first hmissing _)).bind fun _ => within_forEach fun x hx => ?_
    by_cases hu : x.1 = u
    · rw [hmissing.eq_of_nonExistent hx hu]
      exact keeps_settled hsettled
    · exact keeps_status (spares_settleOne fun hu' => absurd hu' hu)
  exact outcome_of_settled hsettled (hkept w hstart)

/-- The first loop goes on past a record that it makes no call for, and past the missing one. -/
theorem syncOne_ok (hmissing : Missing env stored.rows u r) (hanswers : Answers refuse u)
    (hreached : Reached env stored.rows u r) (cid : Nat) (w : Log State Call Failure) :
    wp (syncOne env refuse (listByHost env stored.rows)
      (locals env.docker (getLocalContainers env stored.rows)) cid) (fun result _ => result = .ok ()) w := by
  unfold syncOne
  split
  · rename_i c l hc hl
    obtain ⟨hcrow, hchost, hccid, rfl⟩ := copies_of_byId hc hl
    have hcalled : wp (onlyIf ((seen env c.2).status = .running ∧ env.verifyWiring = true)
        (ask refuse (.watchWiring c.1))) (fun result _ => result = .ok ()) w ∧
        ¬ c.2.status ≠ (seen env c.2).status := by
      by_cases hcu : c.1 = u
      · have hsame : c.2 = r := Option.some.inj (hcrow.symm.trans (hcu ▸ hmissing.row))
        refine ⟨wp_onlyIf (fun _ => wp_answered (fun n => hanswers n _ ?_) fun _ _ => rfl) fun _ => rfl, ?_⟩
        · exact congrArg some hcu
        · rw [hsame, seen_of_gone hmissing.gone]
          exact fun hne => hne rfl
      · have hid : c.2.containerId ≠ none := by
          rw [hccid]
          exact Option.some_ne_none cid
        obtain ⟨hstatus, hrunning⟩ := hreached.calm c.1 c.2 hcu hcrow hchost hid
        exact ⟨wp_onlyIf (fun h => absurd h hrunning) fun _ => rfl, not_not.mpr hstatus.symm⟩
    rw [wp_bind]
    refine wp_mono hcalled.1 ?_
    rintro - w' rfl
    unfold onlyIf
    rw [seqPost_ok, if_neg hcalled.2, if_neg (not_not.mpr hchost)]
    exact rfl
  · exact rfl

/-- What is raised in a heal is swallowed. -/
theorem heal_ok (x : Uuid × Row) (w : Log State Call Failure) :
    wp (healWithRebuildingContainer refuse x) (fun result _ => result = .ok ()) w := by
  unfold healWithRebuildingContainer
  cases x.2.containerId with
  | none => exact rfl
  | some id =>
      refine wp_swallow_of ?_
      rw [wp_ite]
      split
      · rw [wp_bind]
        exact wp_consult (fun _ _ _ _ => rfl) fun _ _ _ => rfl
      · exact wp_consult (fun _ _ _ _ => rfl) fun _ _ _ => rfl

theorem settleOne_ok {x : Uuid × Row} (h : x.2.host = some env.host → x.2.autoRemove = false)
    (w : Log State Call Failure) : wp (settleOne env refuse x) (fun result _ => result = .ok ()) w := by
  unfold settleOne
  refine wp_onlyIf (fun hhost => ?_) fun _ => rfl
  rw [if_neg (Bool.eq_false_iff.mp (h hhost))]
  exact heal_ok x w

/-- A record whose turn it is gets what it asks for. -/
theorem outcome_settleOne (hanswers : Answers refuse u) (hhost : r.host = some env.host) (htreat : Treatable r)
    {w : Log State Call Failure} (hrow : w.state.rows.lookup u = some r) :
    wp (settleOne env refuse (u, r)) (fun _ w' => Outcome w'.state u r) w := by
  unfold settleOne
  refine wp_onlyIf (fun _ => ?_) fun hother => absurd hhost hother
  by_cases hremove : r.autoRemove = true
  · rw [if_pos hremove]
    refine wp_answered (fun n => hanswers n _ rfl) fun w' hw' => ⟨fun _ => ?_, ?_, ?_⟩
    · rw [hw']
      exact ⟨_, lookup_update _ hrow, rfl⟩
    · exact fun hremove' => by cases hremove.symm.trans hremove'
    · exact fun hremove' => by cases hremove.symm.trans hremove'
  · obtain ⟨hid, hheals⟩ := htreat.resolve_left hremove
    obtain ⟨id, hid⟩ := Option.ne_none_iff_exists'.mp hid
    have hrebuilds : ¬ (r.autoHeal = true ∧ r.status ∈ validStates .rebuild) := hheals
    rw [if_neg hremove]
    unfold healWithRebuildingContainer
    rw [hid]
    refine wp_swallow_of ?_
    show wp (if r.autoHeal = true ∧ r.status ∈ validStates .rebuild then _ else _) _ w
    rw [if_neg hrebuilds]
    refine wp_answered (fun n => hanswers n _ rfl) fun w' hw' => ⟨fun h => absurd h hremove, ?_, fun _ _ => ?_⟩
    · exact fun _ h => absurd h hheals
    · rw [hw']
      exact hasStatus_markMissing id hrow

/-- A loop of which no turn raises, and each leaves the record alone. -/
theorem wp_forEach_spares {β : Type} {bs : List β} {f : β → Run Unit} {w : Log State Call Failure}
    (hok : ∀ b ∈ bs, ∀ w, wp (f b) (fun result _ => result = .ok ()) w)
    (hspares : ∀ b ∈ bs, Within (Spares u) (f b)) :
    wp (forEach bs f) (fun result w' => result = .ok () ∧ Spares u w w') w := by
  refine wp_and ?_ ((within_forEach hspares).wp w)
  refine wp_forEach (P := fun result _ => result = .ok ()) rfl fun b hb w' _ => hok b hb w'

theorem outcome_reached (hlists : Lists refuse) (hanswers : Answers refuse u)
    (hmissing : Missing env stored.rows u r) (htreat : Treatable r) (hreached : Reached env stored.rows u r) :
    wp (syncContainerState env refuse) (fun _ w => Outcome w.state u r) ⟨{ rows := stored.rows }, []⟩ := by
  obtain ⟨before, after, hsplit, hfirst⟩ := hreached.first
  have hnodup : ((nonExistent env.docker (getLocalContainers env stored.rows)).map (·.1)).Nodup :=
    nodup_nonExistent stored.rows
  rw [hsplit, List.map_append, List.map_cons] at hnodup
  have hbefore : ∀ x ∈ before, x.1 ≠ u := fun x hx hu =>
    List.disjoint_of_nodup_append hnodup (List.mem_map.mpr ⟨x, hx, hu⟩) (List.mem_cons_self ..)
  have hafter : ∀ x ∈ after, x.1 ≠ u := fun x hx hu =>
    (List.nodup_cons.mp (List.Nodup.of_append_right hnodup)).1 (List.mem_map.mpr ⟨x, hx, hu⟩)
  refine wp_pass hlists hmissing fun w hw => ?_
  unfold settleAll
  rw [hsplit, forEach_append, wp_bind]
  refine wp_mono (wp_forEach_spares (fun cid _ => syncOne_ok hmissing hanswers hreached cid)
    fun cid _ => spares_syncOne hmissing cid) ?_
  rintro - w₁ ⟨rfl, hsync⟩
  rw [seqPost_ok, wp_bind]
  refine wp_mono (wp_forEach_spares (fun x hx => settleOne_ok (hfirst x hx))
    fun x hx => spares_settleOne fun hu => absurd hu (hbefore x hx)) ?_
  rintro - w₂ ⟨rfl, hsettle⟩
  have hrow : w₂.state.rows.lookup u = some r := by
    rw [hsettle.row, hsync.row, hw]
    exact hmissing.row
  rw [seqPost_ok]
  refine wp_then_kept (outcome_settleOne hanswers hmissing.host htreat hrow) fun _ => keeps_outcome ?_
  exact within_forEach fun x hx => spares_settleOne fun hu => absurd hu (hafter x hx)

def envOf : Env := { host := "compute-1", docker := [] }

def healing : Row :=
  { status := .running, containerId := some 1, host := some "compute-1", autoHeal := true }

def healingOnly : Stored where
  rows := (∅ : Rows).insert 7 healing
  distinct := by
    intro u v r r' id hu hv _ _
    rcases DockerSync.lookup_insert_cases hu with ⟨rfl, -⟩ | ⟨-, hu⟩
    · rcases DockerSync.lookup_insert_cases hv with ⟨rfl, -⟩ | ⟨-, hv⟩
      · rfl
      · cases hv
    · cases hu

end DockerHeal

end Zun
