import Zun.Cni.Registry

/-!
# When an entry of the registry is deleted

An entry is deleted when its record is gone and a DEL of its sandbox was handled.  The DEL and the
watcher come in either order: the first sets a flag on the entry, and the second finds it and
deletes the entry.
-/

namespace Zun

open Effect

namespace Cni

/-! ## The law -/

/-- The DEL of a worker, or the watcher, is at the entry of `u`. -/
def AtEntry (u : Uuid) : Event → State → Prop
  | .work i _, s => ∃ r, r.uuid = u ∧ s.workers i = some (.del r (.disconnecting []))
  | .watch _ _, s => ∃ gone, s.watcher = .removing (u :: gone)
  | _, _ => False

/-- What an event may do to the entries. -/
structure Lawful (host : String) (e : Event) (s : State) : Prop where
  /-- An entry goes by the hand of a DEL or of the watcher, when its record is gone and a DEL of
  its sandbox has been handled. -/
  removed : ∀ u entry, s.registry.lookup u = some entry →
    (step host e s).registry.lookup u = none →
      AtEntry u e s ∧ s.rows.lookup u = none ∧
        ∃ c, entry.containerId = some c ∧ .handled u c ∈ (step host e s).log
  /-- An entry with `del_received` has no record. -/
  marked : ∀ u entry, (step host e s).registry.lookup u = some entry → entry.delReceived = true →
    (step host e s).rows.lookup u = none

/-! ## Its condition -/

/-- The pass of the watcher has read the rows and does not have this one. -/
def Overlooked (u : Uuid) (row : Row) : Watcher → Prop
  | .capsules known => row.capsule = true ∧ u ∉ known
  | .records known => u ∉ known
  | _ => False

/-- The record of an entry that is written, or is changed later, is on the host.  An entry is
written when the watcher is not about to look for a row it has not read, and when no DEL of another
sandbox has passed the comparison of the ids. -/
def Minded (host : String) : Event → State → Prop
  | .work i _, s =>
      match s.workers i with
      | some (.add r (.connecting [] _)) =>
          (∀ row, s.rows.lookup r.uuid = some row →
            row.host = some host ∧ ¬ Overlooked r.uuid row s.watcher) ∧
          ∀ j r' phase, s.workers j = some (.del r' phase) → r'.uuid = r.uuid →
            r'.containerId ≠ r.containerId → phase = .checking
      | _ => True
  | .save u row, s => u ∈ s.registry → row.host = some host
  | _, _ => True

/-- The daemon has just started. -/
structure Fresh (s : State) : Prop where
  registry : s.registry = ∅
  workers : ∀ i, s.workers i = none
  watcher : s.watcher = .idle
  uuids : ∀ u row, s.rows.lookup u = some row → u ∈ s.uuids

/-! ## The invariant -/

/-- An entry of `u` agrees with the rest of the node. -/
structure Sound (host : String) (s : State) (u : Uuid) (entry : Entry) : Prop where
  named : ∃ c, entry.containerId = some c ∧
    (entry.vifUnplugged = true → .handled u c ∈ s.log)
  marked : entry.delReceived = true → s.rows.lookup u = none
  listed : ∀ row, s.rows.lookup u = some row → row.host = some host ∧ ¬ Overlooked u row s.watcher
  known : u ∈ s.uuids
  passed : ∀ i r phase, s.workers i = some (.del r phase) → r.uuid = u → phase ≠ .checking →
    entry.containerId = some r.containerId

structure Agreed (host : String) (s : State) : Prop where
  entries : ∀ u entry, s.registry.lookup u = some entry → Sound host s u entry
  gone : ∀ gone, s.watcher = .removing gone → ∀ u ∈ gone, s.rows.lookup u = none ∧ u ∈ s.uuids
  rows : ∀ u row, s.rows.lookup u = some row → u ∈ s.uuids
  found : ∀ i r rest vifs, s.workers i = some (.add r (.connecting rest vifs)) → r.uuid ∈ s.uuids

variable {host : String} {s : State} {u : Uuid} {entry : Entry} {i : Nat}

theorem Agreed.setEntry (h : Agreed host s) (hsound : Sound host s u entry) :
    Agreed host (s.setEntry u entry) := by
  refine ⟨fun v e hv => ?_, h.gone, h.rows, h.found⟩
  have hold : Sound host s v e := by
    by_cases hvu : v = u
    · subst hvu
      rw [State.setEntry, AList.lookup_insert] at hv
      cases hv
      exact hsound
    · rw [State.setEntry, AList.lookup_insert_ne hvu] at hv
      exact h.entries v e hv
  exact ⟨hold.named, hold.marked, hold.listed, hold.known, hold.passed⟩

theorem Agreed.dropEntry (h : Agreed host s) : Agreed host (s.dropEntry u) := by
  refine ⟨fun v e hv => ?_, h.gone, h.rows, h.found⟩
  have hold : Sound host s v e := by
    by_cases hvu : v = u
    · subst hvu
      rw [State.dropEntry, AList.lookup_erase] at hv
      cases hv
    · rw [State.dropEntry, AList.lookup_erase_ne hvu] at hv
      exact h.entries v e hv
  exact ⟨hold.named, hold.marked, hold.listed, hold.known, hold.passed⟩

theorem Sound.logged (h : Sound host s u entry) (a : Act) : Sound host (s.logged a) u entry := by
  obtain ⟨c, hc, hhandled⟩ := h.named
  exact ⟨⟨c, hc, fun hun => List.mem_cons_of_mem _ (hhandled hun)⟩, h.marked, h.listed, h.known,
    h.passed⟩

theorem Agreed.logged (h : Agreed host s) (a : Act) : Agreed host (s.logged a) :=
  ⟨fun u e hu => (h.entries u e hu).logged a, h.gone, h.rows, h.found⟩

/-- A worker goes on to a phase that fits the entry. -/
theorem Agreed.setWorker (h : Agreed host s) {w : Option Worker}
    (hdel : ∀ r phase, w = some (.del r phase) → phase ≠ .checking → ∀ entry,
      s.registry.lookup r.uuid = some entry → entry.containerId = some r.containerId)
    (hadd : ∀ r rest vifs, w = some (.add r (.connecting rest vifs)) → r.uuid ∈ s.uuids) :
    Agreed host (s.setWorker i w) := by
  refine ⟨fun v e hv => ?_, h.gone, h.rows, fun j r rest vifs hj => ?_⟩
  · have hold := h.entries v e hv
    refine ⟨hold.named, hold.marked, hold.listed, hold.known, fun j r phase hj hu hphase => ?_⟩
    by_cases hji : j = i
    · subst hji
      rw [State.setWorker_self] at hj
      subst hu
      exact hdel r phase hj hphase e hv
    · rw [State.setWorker_of_ne hji] at hj
      exact hold.passed j r phase hj hu hphase
  · by_cases hji : j = i
    · subst hji
      rw [State.setWorker_self] at hj
      exact hadd r rest vifs hj
    · rw [State.setWorker_of_ne hji] at hj
      exact h.found j r rest vifs hj

theorem Agreed.ends (h : Agreed host s) : Agreed host (s.setWorker i none) :=
  h.setWorker nofun nofun

/-- The watcher goes on to where it overlooks no entry. -/
theorem Agreed.watches (h : Agreed host s) {w : Watcher}
    (hseen : ∀ u entry row, s.registry.lookup u = some entry → s.rows.lookup u = some row →
      ¬ Overlooked u row w)
    (hgone : ∀ gone, w = .removing gone → ∀ u ∈ gone, s.rows.lookup u = none ∧ u ∈ s.uuids) :
    Agreed host { s with watcher := w } := by
  refine ⟨fun u e hu => ?_, hgone, h.rows, h.found⟩
  have hold := h.entries u e hu
  exact ⟨hold.named, hold.marked, fun row hrow => ⟨(hold.listed row hrow).1, hseen u e row hu hrow⟩,
    hold.known, hold.passed⟩

/-! ## Steps -/

theorem agreed_stepAdd {r : Request} {phase : AddPhase} {ok : Bool} (h : Agreed host s)
    (hw : s.workers i = some (.add r phase)) (hminded : Minded host (.work i ok) s) :
    Agreed host (stepAdd s i r ok phase) := by
  cases phase with
  | finding =>
      cases ok with
      | false => exact h.ends
      | true =>
          simp only [stepAdd]
          cases hrow : s.rows.lookup r.uuid with
          | none => exact h.ends
          | some row =>
              refine h.setWorker (by rintro _ _ ⟨⟩) fun r' rest vifs hgo => ?_
              cases hgo
              exact h.rows r.uuid row hrow
  | connecting rest vifs =>
      cases rest with
      | nil =>
          simp only [Minded, hw] at hminded
          have hsound : Sound host s r.uuid { containerId := some r.containerId, vifs } := by
            refine ⟨⟨r.containerId, rfl, by rintro ⟨⟩⟩, by rintro ⟨⟩, hminded.1, h.found i r [] vifs hw,
              fun j r' phase hj hu hphase => ?_⟩
            by_contra hne
            refine hphase (hminded.2 j r' phase hj hu fun hid => hne ?_)
            rw [hid]
          exact (h.setEntry hsound).setWorker (by rintro _ _ ⟨⟩) (by rintro _ _ _ ⟨⟩)
      | cons v rest =>
          have hlogged := h.logged (.connect r.uuid r.containerId)
          cases ok with
          | false => exact hlogged.ends
          | true =>
              refine hlogged.setWorker (by rintro _ _ ⟨⟩) fun r' rest' vifs' hgo => ?_
              cases hgo
              exact h.found i r _ vifs hw
  | waiting =>
      simp only [stepAdd]
      split
      · split
        · exact h.ends
        · exact h
      · exact h.ends

/-- What a DEL does to the entry of its sandbox. -/
theorem agreed_unplugged {c : Nat} (h : Agreed host s)
    (hnamed : ∀ entry, s.registry.lookup u = some entry → entry.containerId = some c)
    (hhandled : .handled u c ∈ s.log) : Agreed host (unplugged s u) := by
  unfold unplugged
  split
  · exact h
  case h_2 e he =>
    split
    · exact h.dropEntry
    · have hold := h.entries u e he
      exact h.setEntry ⟨⟨c, hnamed e he, fun _ => hhandled⟩, hold.marked, hold.listed, hold.known,
        hold.passed⟩

theorem unplugged_logged (a : Act) : (unplugged s u).logged a = unplugged (s.logged a) u := by
  unfold unplugged State.logged
  simp only
  split
  · rfl
  · split <;> rfl

theorem agreed_stepDel {r : Request} {phase : DelPhase} {ok : Bool} (h : Agreed host s)
    (hw : s.workers i = some (.del r phase)) : Agreed host (stepDel s i r ok phase) := by
  -- A DEL that has passed the comparison goes on with the entry of its sandbox.
  have hpassed {s' : State} (hreg : s'.registry = s.registry) (hphase : phase ≠ .checking) {b : Bool}
      (phase' : DelPhase) (r' : Request) (phase'' : DelPhase)
      (hgo : (if b then some (Worker.del r phase') else none) = some (.del r' phase''))
      (entry : Entry) (hentry : s'.registry.lookup r'.uuid = some entry) :
      entry.containerId = some r'.containerId := by
    rw [hreg] at hentry
    cases b with
    | false => cases hgo
    | true =>
        cases hgo
        exact (h.entries r.uuid entry hentry).passed i r phase hw rfl hphase
  have hadd {b : Bool} (phase' : DelPhase) (r' : Request) (rest vifs : Vifs)
      (hgo : (if b then some (Worker.del r phase') else none) = some (.add r' (.connecting rest vifs))) :
      r'.uuid ∈ s.uuids := by
    cases b with
    | false => cases hgo
    | true => cases hgo
  cases phase with
  | checking =>
      refine h.setWorker (fun r' phase' hgo _ entry hentry => ?_) fun r' => hadd _ r'
      cases hpass : passes r (s.registry.lookup r.uuid) with
      | false =>
          rw [hpass] at hgo
          cases hgo
      | true =>
          rw [hpass] at hgo
          cases hgo
          obtain ⟨c, hc, -⟩ := (h.entries r.uuid entry hentry).named
          rw [hentry] at hpass
          simp only [passes, hc, Option.all_some, decide_eq_true_eq] at hpass
          rw [hc, hpass]
  | finding =>
      exact h.setWorker (fun r' phase' hgo _ => hpassed rfl nofun _ r' phase' hgo) fun r' => hadd _ r'
  | disconnecting rest =>
      cases rest with
      | nil =>
          simp only [stepDel]
          rw [unplugged_logged]
          refine Agreed.ends (agreed_unplugged (h.logged _) (fun entry hentry => ?_)
            (List.mem_cons_self ..))
          exact (h.entries r.uuid entry hentry).passed i r _ hw rfl nofun
      | cons v rest =>
          refine (h.logged (.disconnect r.uuid r.containerId)).setWorker
            (fun r' phase' hgo _ => hpassed rfl nofun _ r' phase' hgo) fun r' => hadd _ r'

theorem agreed_onContainerDeleted (h : Agreed host s) (hrow : s.rows.lookup u = none) :
    Agreed host (onContainerDeleted s u) := by
  unfold onContainerDeleted
  split
  · exact h
  case h_2 e he =>
    split
    · exact h.dropEntry
    · have hold := h.entries u e he
      exact h.setEntry ⟨hold.named, fun _ => hrow, hold.listed, hold.known, hold.passed⟩

theorem agreed_updateVifStatus (h : Agreed host s) (ifname : String) :
    Agreed host (updateVifStatus s u ifname) := by
  unfold updateVifStatus
  split
  · exact h
  case h_2 e he =>
    have hold := h.entries u e he
    exact h.setEntry ⟨hold.named, hold.marked, hold.listed, hold.known, hold.passed⟩

theorem onContainerDeleted_rows : (onContainerDeleted s u).rows = s.rows := by
  unfold onContainerDeleted
  split
  · rfl
  · split <;> rfl

theorem onContainerDeleted_uuids : (onContainerDeleted s u).uuids = s.uuids := by
  unfold onContainerDeleted
  split
  · rfl
  · split <;> rfl

theorem mem_listByHost {row : Row} (hrow : s.rows.lookup u = some row)
    (hhost : row.host = some host) : u ∈ listByHost host row.capsule s := by
  have hentry : (⟨u, row⟩ : Sigma fun _ : Uuid => Row) ∈ s.rows.entries :=
    AList.mem_lookup_iff.mp hrow
  refine List.mem_map.mpr ⟨⟨u, row⟩, List.mem_filter.mpr ⟨hentry, ?_⟩, rfl⟩
  simp [hhost]

theorem agreed_stepWatcher (h : Agreed host s) (ok : Bool) (active : List Nat) :
    Agreed host (stepWatcher host s ok active) := by
  unfold stepWatcher
  split
  · exact h
  case h_2 known hknown =>
    cases ok with
    | false => exact h.watches (fun _ _ _ _ _ => nofun) nofun
    | true =>
        refine h.watches (fun u e row hu hrow hmissed => hmissed ?_) nofun
        obtain ⟨hhost, hseen⟩ := (h.entries u e hu).listed row hrow
        cases hkind : row.capsule with
        | true =>
            refine List.mem_append_left _ (by_contra fun hnot => hseen ?_)
            rw [hknown]
            exact ⟨hkind, hnot⟩
        | false =>
            have hmem := mem_listByHost hrow hhost
            rw [hkind] at hmem
            exact List.mem_append_right _ hmem
  case h_3 known hknown =>
    refine h.watches (fun _ _ _ _ _ => nofun) fun gone hgone u hu => ?_
    cases hgone
    obtain ⟨hkey, hnot⟩ := List.mem_filter.mp hu
    obtain ⟨e, he⟩ := Option.isSome_iff_exists.mp (AList.lookup_isSome.mpr (AList.mem_keys.mpr hkey))
    have hold := h.entries u e he
    refine ⟨?_, hold.known⟩
    -- The pass has every row that an entry has, so this entry has none.
    cases hrow : s.rows.lookup u with
    | none => rfl
    | some row =>
        have hseen := (hold.listed row hrow).2
        rw [hknown] at hseen
        have hnew : u ∉ known := by simpa using hnot
        exact absurd hnew hseen
  · exact h.watches (fun _ _ _ _ _ => nofun) nofun
  case h_5 u gone hgone =>
    obtain ⟨hrow, -⟩ := h.gone _ hgone u (List.mem_cons_self ..)
    refine (agreed_onContainerDeleted h hrow).watches (fun _ _ _ _ _ => nofun) fun gone' heq v hv => ?_
    cases heq
    rw [onContainerDeleted_rows, onContainerDeleted_uuids]
    exact h.gone _ hgone v (List.mem_cons_of_mem _ hv)
  · cases ok with
    | false => exact h.watches (fun _ _ _ _ _ => nofun) nofun
    | true => exact h.watches (fun _ _ _ _ _ => nofun) nofun
  · exact h.watches (fun _ _ _ _ _ => nofun) nofun
  · cases ok with
    | false => exact (agreed_updateVifStatus h _).watches (fun _ _ _ _ _ => nofun) nofun
    | true => exact (agreed_updateVifStatus h _).watches (fun _ _ _ _ _ => nofun) nofun

theorem agreed_save {row : Row} (h : Agreed host s) (hpossible : Possible (.save u row) s)
    (hminded : Minded host (.save u row) s) : Agreed host (step host (.save u row) s) := by
  -- A record that was there before is not one that is gone.
  have hthere {v : Uuid} (hv : v ∈ s.uuids) (hnone : s.rows.lookup v = none) : v ≠ u := by
    rintro rfl
    obtain ⟨old, hold, -⟩ := hpossible hv
    cases hold.symm.trans hnone
  refine ⟨fun v e hv => ?_, fun gone hgone v hv => ?_, fun v row' hv => ?_, fun j r rest vifs hj =>
    List.mem_cons_of_mem _ (h.found j r rest vifs hj)⟩
  · have hold := h.entries v e hv
    refine ⟨hold.named, fun hdel => ?_, fun row' hrow' => ?_, List.mem_cons_of_mem _ hold.known,
      hold.passed⟩
    · exact (AList.lookup_insert_ne (hthere hold.known (hold.marked hdel))).trans (hold.marked hdel)
    · by_cases hvu : v = u
      · subst hvu
        obtain ⟨old, holdrow, hkind⟩ := hpossible hold.known
        have hnew : row' = row := Option.some.inj (hrow'.symm.trans (AList.lookup_insert _))
        subst hnew
        have hkey : v ∈ s.registry := AList.lookup_isSome.mp (Option.isSome_iff_exists.mpr ⟨e, hv⟩)
        refine ⟨hminded hkey, fun hmissed => ?_⟩
        refine (hold.listed old holdrow).2 ?_
        change Overlooked v row' s.watcher at hmissed
        unfold Overlooked at hmissed ⊢
        rw [hkind]
        exact hmissed
      · exact hold.listed row' ((AList.lookup_insert_ne hvu).symm.trans hrow')
  · obtain ⟨hnone, hknown⟩ := h.gone gone hgone v hv
    exact ⟨(AList.lookup_insert_ne (hthere hknown hnone)).trans hnone,
      List.mem_cons_of_mem _ hknown⟩
  · by_cases hvu : v = u
    · subst hvu
      exact List.mem_cons_self ..
    · exact List.mem_cons_of_mem _ (h.rows v row' ((AList.lookup_insert_ne hvu).symm.trans hv))

theorem agreed_destroy (h : Agreed host s) : Agreed host (step host (.destroy u) s) := by
  have hkept {v : Uuid} (hnone : s.rows.lookup v = none) : (s.rows.erase u).lookup v = none := by
    by_cases hvu : v = u
    · subst hvu
      exact AList.lookup_erase ..
    · exact (AList.lookup_erase_ne hvu).trans hnone
  have hold {v : Uuid} {row : Row} (hrow : (s.rows.erase u).lookup v = some row) :
      s.rows.lookup v = some row := by
    by_cases hvu : v = u
    · subst hvu
      cases hrow.symm.trans (AList.lookup_erase ..)
    · exact (AList.lookup_erase_ne hvu).symm.trans hrow
  refine ⟨fun v e hv => ?_, fun gone hgone v hv => ?_, fun v row hv => h.rows v row (hold hv), h.found⟩
  · have hs := h.entries v e hv
    exact ⟨hs.named, fun hdel => hkept (hs.marked hdel), fun row hrow => hs.listed row (hold hrow),
      hs.known, hs.passed⟩
  · exact ⟨hkept (h.gone gone hgone v hv).1, (h.gone gone hgone v hv).2⟩

theorem agreed_step (e : Event) (h : Agreed host s) (hpossible : Possible e s)
    (hminded : Minded host e s) : Agreed host (step host e s) := by
  cases e with
  | add i r => exact h.setWorker (by rintro _ _ ⟨⟩) fun r' rest vifs hgo => by cases hgo
  | del i r =>
      refine h.setWorker (fun r' phase hgo hphase => ?_) (by rintro _ _ _ ⟨⟩)
      cases hgo
      exact absurd rfl hphase
  | work i ok =>
      simp only [step, stepWorker]
      split
      · exact h
      · exact agreed_stepAdd h ‹_› hminded
      · exact agreed_stepDel h ‹_›
  | sync =>
      refine h.watches (fun u e row hu hrow hmissed => hmissed.2 ?_) (by rintro _ ⟨⟩)
      have hmem := mem_listByHost hrow ((h.entries u e hu).listed row hrow).1
      rw [hmissed.1] at hmem
      exact hmem
  | poll => exact h.watches (fun _ _ _ _ _ => not_false) (by rintro _ ⟨⟩)
  | watch ok active => exact agreed_stepWatcher h ok active
  | save u row => exact agreed_save h hpossible hminded
  | destroy u => exact agreed_destroy h

/-! ## Deletions -/

theorem lookup_setEntry_ne_none {v : Uuid} (h : s.registry.lookup v ≠ none) :
    (s.setEntry u entry).registry.lookup v ≠ none := by
  by_cases hvu : v = u
  · subst hvu
    rw [State.setEntry, AList.lookup_insert]
    nofun
  · rw [State.setEntry, AList.lookup_insert_ne hvu]
    exact h

/-- An entry that goes when another is dropped is that other. -/
theorem eq_of_dropEntry {v : Uuid} (h : s.registry.lookup v ≠ none)
    (hgone : (s.dropEntry u).registry.lookup v = none) : v = u := by
  by_contra hvu
  rw [State.dropEntry, AList.lookup_erase_ne hvu] at hgone
  exact h hgone

theorem stepAdd_keeps {r : Request} {phase : AddPhase} {ok : Bool} {v : Uuid}
    (h : s.registry.lookup v ≠ none) : (stepAdd s i r ok phase).registry.lookup v ≠ none := by
  cases phase with
  | finding =>
      simp only [stepAdd]
      split <;> exact h
  | connecting rest vifs =>
      cases rest with
      | nil => exact lookup_setEntry_ne_none h
      | cons w rest => exact h
  | waiting =>
      simp only [stepAdd]
      split
      · split <;> exact h
      · exact h

/-- A DEL deletes the entry that has `del_received`, and no other. -/
theorem unplugged_removes {v : Uuid} (h : s.registry.lookup v = some entry)
    (hgone : (unplugged s u).registry.lookup v = none) : v = u ∧ entry.delReceived = true := by
  have hthere : s.registry.lookup v ≠ none := by
    rw [h]
    nofun
  unfold unplugged at hgone
  split at hgone
  · exact absurd hgone hthere
  case h_2 e he =>
    split at hgone
    case isTrue hdel =>
      have hvu := eq_of_dropEntry hthere hgone
      subst hvu
      cases he.symm.trans h
      exact ⟨rfl, hdel⟩
    case isFalse => exact absurd hgone (lookup_setEntry_ne_none hthere)

/-- The watcher deletes the entry that has `vif_unplugged`, and no other. -/
theorem onContainerDeleted_removes {v : Uuid} (h : s.registry.lookup v = some entry)
    (hgone : (onContainerDeleted s u).registry.lookup v = none) :
    v = u ∧ entry.vifUnplugged = true := by
  have hthere : s.registry.lookup v ≠ none := by
    rw [h]
    nofun
  unfold onContainerDeleted at hgone
  split at hgone
  · exact absurd hgone hthere
  case h_2 e he =>
    split at hgone
    case isTrue hun =>
      have hvu := eq_of_dropEntry hthere hgone
      subst hvu
      cases he.symm.trans h
      exact ⟨rfl, hun⟩
    case isFalse => exact absurd hgone (lookup_setEntry_ne_none hthere)

theorem updateVifStatus_keeps {v : Uuid} {ifname : String} (h : s.registry.lookup v ≠ none) :
    (updateVifStatus s u ifname).registry.lookup v ≠ none := by
  unfold updateVifStatus
  split
  · exact h
  · exact lookup_setEntry_ne_none h

theorem removed_by_del {r : Request} {phase : DelPhase} {ok : Bool} (h : Agreed host s)
    (hw : s.workers i = some (.del r phase)) (hu : s.registry.lookup u = some entry)
    (hgone : (stepDel s i r ok phase).registry.lookup u = none) :
    phase = .disconnecting [] ∧ r.uuid = u ∧ s.rows.lookup u = none ∧
      ∃ c, entry.containerId = some c ∧ .handled u c ∈ (stepDel s i r ok phase).log := by
  have hthere : s.registry.lookup u ≠ none := by
    rw [hu]
    nofun
  cases phase with
  | checking => exact absurd hgone hthere
  | finding => exact absurd hgone hthere
  | disconnecting rest =>
      cases rest with
      | cons v rest => exact absurd hgone hthere
      | nil =>
          obtain ⟨rfl, hdel⟩ := unplugged_removes hu hgone
          have hsound := h.entries _ entry hu
          exact ⟨rfl, rfl, hsound.marked hdel, r.containerId, hsound.passed i r _ hw rfl nofun,
            List.mem_cons_self ..⟩

theorem removed_by_watcher {ok : Bool} {active : List Nat} (h : Agreed host s)
    (hu : s.registry.lookup u = some entry)
    (hgone : (stepWatcher host s ok active).registry.lookup u = none) :
    (∃ gone, s.watcher = .removing (u :: gone)) ∧ s.rows.lookup u = none ∧
      ∃ c, entry.containerId = some c ∧ .handled u c ∈ s.log := by
  have hthere : s.registry.lookup u ≠ none := by
    rw [hu]
    nofun
  unfold stepWatcher at hgone
  split at hgone
  case h_5 v gone hw =>
    obtain ⟨rfl, hun⟩ := onContainerDeleted_removes hu hgone
    obtain ⟨c, hc, hhandled⟩ := (h.entries _ entry hu).named
    exact ⟨⟨gone, hw⟩, (h.gone _ hw _ (List.mem_cons_self ..)).1, c, hc, hhandled hun⟩
  case h_8 => exact absurd hgone (updateVifStatus_keeps hthere)
  all_goals exact absurd hgone hthere

theorem Fresh.agreed (h : Fresh s) : Agreed host s := by
  refine ⟨fun u e hu => ?_, fun gone hgone => ?_, h.uuids, fun i r rest vifs hw => ?_⟩
  · rw [h.registry] at hu
    cases hu
  · rw [h.watcher] at hgone
    cases hgone
  · rw [h.workers i] at hw
    cases hw

/-- A record on the node with one VIF. -/
def oneVif : Row := { host := some "node", vifs := [("eth0", { id := 3 })] }

/-- A record gets its sandbox, is deleted and is found deleted, and the DEL of its sandbox has
nothing left to disconnect. -/
def wholeLife : List Event :=
  [.save 7 oneVif, .add 0 ⟨7, 1⟩, .work 0 true, .work 0 true, .work 0 true, .destroy 7, .sync,
   .watch true [], .watch true [], .watch true [], .del 1 ⟨7, 1⟩, .work 1 true, .work 1 true]

/-- The record is made, and its entry written, after the watcher has read the rows. -/
def readBefore : List Event :=
  [.sync, .watch true [], .save 7 oneVif, .add 0 ⟨7, 1⟩, .work 0 true, .work 0 true, .work 0 true,
   .watch true []]

end Cni

end Zun
