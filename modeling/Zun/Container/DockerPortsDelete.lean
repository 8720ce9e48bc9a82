import Zun.Container.DockerPortsDrop

/-!
# A delete

A container without a port of its own is deleted whatever fails: its ports are only unbound.  From the
first port that is deleted on, a delete must come to its end, since the record goes on naming the port
until it is destroyed.
-/

namespace Zun

open Effect Prog World Manager

namespace DockerPorts

variable {u : Uuid} {k : Nat} {calls : List (Call × Answer)} {s s' : World} {env : Env}
  {I : World → Prop} {bad : Call × Answer → List (Call × Answer) → Prop}
  {E : Exn → World → Prop} {Q : List Port → Prop} {strict clean : Bool}
  {addresses : List (NetId × List Addr)} {addrs : List Addr} {p : Port}

/-! ## The row goes -/

/-- No port was made. -/
def NoneMade (wires : List Port) : Prop := ∀ p ∈ wires, p.zunMade = false

theorem rests_dropRows (hwired : Wired s.wires s.nextId) (hnone : NoneMade s.wires) :
    Rests u (s.dropRows [u]) where
  wired := hwired
  gone _ := hnone
  placed _ hr := nomatch (dropRows_db_of_mem List.mem_cons_self).symm.trans hr
  bare _ hr := nomatch (dropRows_db_of_mem List.mem_cons_self).symm.trans hr

/-- A row is destroyed unless it is gone or a volume mapping refers to it. -/
theorem wp_destroy_of {R : Result Exn Unit → World → Prop}
    (hrefused : ∀ e, s.db u = none ∨ s.referred [u] = true → R (.raise e) s)
    (hok : R (.ok ()) ((s.turn env (.destroy u)).dropRows [u]))
    (hraise : ∀ e, env.answer s.tick (.destroy u) = .raise e → R (.raise e) (s.turn env (.destroy u)))
    (hhalt : R .halt (s.turn env (.destroy u))) : wp (destroy env u) R s := by
  unfold destroy
  cases hrow : s.db u with
  | none => simpa only [wp, hrow] using hrefused _ (.inl hrow)
  | some row =>
      cases href : s.referred [u] with
      | true => simpa only [wp, hrow, href, if_true] using hrefused _ (.inr href)
      | false =>
          simp only [wp, hrow, href, Bool.false_eq_true, if_false]
          exact wp_call (fun _ => hok) hraise fun _ => hhalt

/-- The rule for `destroy`. -/
theorem unless_destroy {J : Unit → World → Prop}
    (hok : ∀ s, I s → J () ((s.turn env (.destroy u)).dropRows [u]))
    (hrefused : ∀ s e, I s → s.db u = none ∨ s.referred [u] = true → E e s)
    (hraise : ∀ s e, I s → env.answer s.tick (.destroy u) = .raise e →
      Spoiled bad calls (s.turn env (.destroy u)) ∨ E e (s.turn env (.destroy u))) :
    Unless (Spoiled bad calls) I J E (destroy env u) where
  kept := within_of_wp fun s => wp_destroy (Q := fun _ s' => Spoiled bad calls s → Spoiled bad calls s')
    (fun _ h => h) (fun h => h.mono (List.suffix_cons ..)) (fun _ h => h.mono (List.suffix_cons ..))
    fun h => h.mono (List.suffix_cons ..)
  ends s hs := by
    refine wp_destroy_of (fun e href => .inr (hrefused s e hs href)) (.inr (hok s hs))
      (fun e hanswer => ?_) (.inr trivial)
    rcases hraise s e hs hanswer with hbad | hend
    · exact .inl hbad
    · exact .inr hend

theorem spoiled_updateTaskState {α : Type} {t : TaskState} {body : Prog World Exn α}
    (h : Within (Kept (Spoiled bad calls)) body) :
    Within (Kept (Spoiled bad calls)) (updateTaskState env u t body) := by
  refine (within_read _).bind fun current => within_ite h ?_
  refine (within_modify fun _ hs => hs).bind fun _ => ?_
  exact (within_save u).bind fun _ => h.tryFinally (spoiled_mark none)

/-! ## Without a port of its own -/

/-- The driver's delete, when every port is to be kept. -/
theorem leveled_delete [Leveled u I] (hkeep : ∀ s, I s → Preserved u s) (force : Bool) :
    Within (Kept I) (Docker.delete env u force) := by
  have hremove : Within (Kept I) (Docker.removeContainer env u) := by
    refine kept_bind (T := fun r : Record => ∀ entry ∈ r.addresses, ∀ a ∈ entry.2,
      a.preserveOnDelete = true) (within_read _) (fun s r s' hs hrun => ?_) fun r hr => ?_
    · cases hrun
      exact hkeep s hs
    · refine (within_forEach fun entry hentry => leveled_disconnect (hr entry hentry)).bind fun _ => ?_
      exact (leveled_call fun s => level_undock _ s).onlyIf
  refine Within.bind ?_ fun release => (leveled_plain _).onlyIf
  refine (hremove.bind fun _ => within_pure _).tryExcept fun e => ?_
  exact within_ite (within_pure _) (within_ite (within_pure _) (within_raise e))

/-- What a delete does once it owns the record. -/
theorem unless_deleteKept (hprompt : Prompt env k) (force : Bool) :
    Unless (Spoiled bad calls)
      (fun s => Settled u k calls NoneMade true false s ∧ Preserved u s)
      (fun _ => Rests u) (fun _ => Rests u)
      (doContainerDelete env (defaultDrivers env) (.container u) force) := by
  let I : World → Prop := fun s => Settled u k calls NoneMade true false s ∧ Preserved u s
  have hfew (s : World) (hs : I s) : held u s ≤ k := hs.1.few
  have howned : Within (Kept I) (deleteOwned env (defaultDrivers env) (.container u) force) := by
    refine Within.bind ?_ fun _ => within_detachInTime hfew hprompt (!force)
    exact (leveled_delete (fun _ hs => hs.2) force).reraisingIf
      (fun e => within_failInTime hfew hprompt _ e) _
  have hE (e : Exn) (s : World) (hs : I s) : Rests u s := hs.1.rests
  have hbody : Within (Kept (Spoiled bad calls))
      (deleteOwned env (defaultDrivers env) (.container u) force) :=
    within_deleteOwned (defaultDrivers_lawful env) _ _
  refine Unless.bind (unless_keeps (I := I) (within_ask _ _ rfl) (within_ask _ _ rfl) hE) fun _ => ?_
  refine Unless.bind (unless_keeps (I := I) (spoiled_updateTaskState hbody)
    (leveled_updateTaskState howned) hE) fun _ => ?_
  refine Unless.bind (unless_keeps (I := I) (within_plain _ rfl).swallow (leveled_plain _).swallow hE)
    fun _ => ?_
  refine Unless.bind (unless_keeps (I := I) (within_releaseAllocation _) (within_releaseAllocation _) hE)
    fun _ => ?_
  refine unless_destroy (fun s hs => ?_) (fun s e hs _ => hE e s hs) fun s e hs _ =>
    .inr (hE e _ (leveled_turn _ hs))
  exact rests_dropRows hs.1.wired hs.1.ports

/-! ## With a port of its own -/

/-- Networks are being taken off.  These are left, with a port that goes with its network unless one
has gone before. -/
structure Dropping (u : Uuid) (k : Nat) (calls : List (Call × Answer)) (Q : List Port → Prop)
    (entries : List (NetId × List Addr)) (s : World) : Prop where
  building : Building u k calls entries [] none s
  ports : Q s.wires
  going : (∃ entry ∈ entries, owned entry) ∨ Did dropsPort calls s

/-- The ports have gone.  The volumes that are left are among these. -/
structure Gone (u : Uuid) (k : Nat) (calls : List (Call × Answer)) (left : Option (List VolMap))
    (s : World) : Prop where
  building : Building u k calls [] [] none s
  did : Did dropsPort calls s
  left : ∀ vs, left = some vs → ∀ v ∈ s.volmaps, v.containerUuid = u → ∃ w ∈ vs, w.id = v.id

variable {left : Option (List VolMap)} {entries : List (NetId × List Addr)} {vs : List VolMap}

instance : Leveled u (Dropping u k calls Q entries) where
  congr h hs := ⟨h.building.congr hs, by rw [hs.wires]; exact h.ports,
    h.going.imp id fun hdid => hdid.mono hs.log⟩

instance : Leveled u (Gone u k calls left) where
  congr h hs := ⟨h.building.congr hs, h.did.mono hs.log,
    fun vs hvs v hv => h.left vs hvs v (hs.maps.subset hv)⟩

theorem Building.kept (h : Building u k calls addresses [] none s) {row : Record}
    (hrow : s.db u = some row) : Building u k calls addresses [] none (s.saved u row) := by
  obtain ⟨r, hr, hhost⟩ := h.row
  cases hrow.symm.trans hr
  refine ⟨h.wired, ⟨_, saved_db_self row, ?_⟩, by rw [saved_val]; exact h.host, h.placed, h.asked, nofun,
    h.few, h.since⟩
  rcases merged_host (s := s) (u := u) row with heq | heq
  · rw [heq]
    exact h.host
  · rw [heq]
    exact hhost

theorem Building.of_ports (h : Building u k calls addresses [] none s)
    (hplaced : Placed s.wires entries []) : Building u k calls entries [] none s :=
  ⟨h.wired, h.row, h.host, hplaced, h.asked, nofun, h.few, h.since⟩

theorem Building.dropped (h : Building u k calls addresses [] none s)
    (hplaced : Placed (s.wires.filter (·.id ≠ p.id)) entries []) :
    Building u k calls entries [] none (Neutron.dropPort p.id s) := by
  refine ⟨?_, h.row, h.host, ?_, fun _ hin => absurd hin List.not_mem_nil, nofun, h.few, h.since⟩
  · rw [wires_dropPort]
    exact h.wired.drop _
  · rw [wires_dropPort]
    exact hplaced

/-- The first network is taken off. -/
theorem filter_networks {entry : NetId × List Addr} {rest : List (NetId × List Addr)}
    (h : ((entry :: rest).map (·.1)).Nodup) : (entry :: rest).filter (·.1 ≠ entry.1) = rest := by
  rw [List.map_cons, List.nodup_cons] at h
  rw [List.filter_cons_of_neg (by simp)]
  refine List.filter_eq_self.mpr fun other hother => decide_eq_true fun heq => h.1 ?_
  exact List.mem_map.mpr ⟨other, hother, heq⟩

theorem did_of_answer {kind : Call → Bool} {c : Call} (hc : kind c = true)
    (hanswer : env.answer s.tick c = .ok) (hsince : calls <:+ s.log) :
    Did kind calls (s.turn env c) := by
  obtain ⟨before, hlog⟩ := hsince
  refine ⟨(c, .ok) :: before, ?_, c, List.mem_cons_self, hc⟩
  show (c, env.answer s.tick c) :: s.log = _
  rw [hanswer, ← hlog]
  rfl

/-- Once the ports have gone, a failure is harmful that is not only logged. -/
theorem Gone.spoiled {r : Record} {force : Bool} (h : Gone u k calls left s) {c : Call} {e : Exn}
    (hc : onlyLogged force c = false) (hanswer : env.answer s.tick c = .raise e) :
    Spoiled (harmful r (.delete force)) calls (s.turn env c) := by
  obtain ⟨before, hlog, hdid⟩ := h.did
  exact spoiled_turn hlog hanswer ⟨nofun, .inl ⟨hdid, hc⟩⟩

theorem unless_gone {r : Record} {force : Bool} {c : Call} (hc : onlyLogged force c = false) :
    Unless (Spoiled (harmful r (.delete force)) calls) (Gone u k calls left)
      (fun _ => Gone u k calls left) E (call env c) :=
  unless_call (fun _ => rfl) (fun _ hs _ => leveled_turn c hs)
    fun _ _ hs hanswer => .inl (hs.spoiled hc hanswer)

section Delete

variable {r : Record} {force : Bool} (howned : ∃ entry ∈ r.addresses, owned entry)

include howned

/-- A failing disconnect or delete of a port is harmful. -/
theorem spoiled_dropping {c : Call} {e : Exn} (hc : disconnects c = true ∨ dropsPort c = true)
    (hsince : calls <:+ s.log) (hanswer : env.answer s.tick c = .raise e) :
    Spoiled (harmful r (.delete force)) calls (s.turn env c) := by
  obtain ⟨before, hlog⟩ := hsince
  exact spoiled_turn hlog.symm hanswer ⟨nofun, .inr ⟨hc, howned⟩⟩

/-- One network of a container. -/
theorem unless_dropNetwork {entry : NetId × List Addr} {rest : List (NetId × List Addr)} :
    Unless (Spoiled (harmful r (.delete force)) calls)
      (Dropping u k calls (fun _ => True) (entry :: rest))
      (fun _ => Dropping u k calls (fun _ => True) rest) E
      (Docker.disconnectContainerFromNetwork env u entry.2) := by
  refine unless_of_forall (Docker.within_disconnectContainerFromNetwork u _) fun s₀ hs₀ => ?_
  obtain ⟨h₀, -, hgoing₀⟩ := hs₀
  obtain ⟨p, hp, hnet, haddrs⟩ := h₀.placed.entries entry List.mem_cons_self
  have hpre (s : World) (hs : s = s₀) : Dropping u k calls (fun wires => p ∈ wires) (entry :: rest) s := by
    rw [hs]
    exact ⟨h₀, hp, hgoing₀⟩
  obtain ⟨n, addrs⟩ := entry
  dsimp only at hnet haddrs ⊢
  subst hnet haddrs
  have hdisconnect (s : World) (e : Exn) (hs : Dropping u k calls (fun wires => p ∈ wires)
      ((p.network, Neutron.addressesOf (!p.zunMade) p) :: rest) s)
      (hanswer : env.answer s.tick (.docker .disconnect u) = .raise e) :
      Spoiled (harmful r (.delete force)) calls (s.turn env (.docker .disconnect u)) :=
    spoiled_dropping howned (.inl rfl) hs.building.since hanswer
  cases hmade : p.zunMade with
  | false =>
      rw [hmade] at hpre hdisconnect
      refine (unless_disconnectKept hdisconnect (preserved_addressesOf p)).conseq hpre (fun _ s hs => ?_)
        fun _ _ hs => hs
      have hplaced := hs.building.placed.without hs.building.wired hs.ports
        (by rw [hmade]; exact List.mem_cons_self) false fun hyes => nomatch hmade.symm.trans hyes
      rw [filter_networks hs.building.placed.nets] at hplaced
      refine ⟨hs.building.of_ports hplaced, trivial, hs.going.imp (fun hex => ?_) id⟩
      obtain ⟨entry, hentry, a, ha, hown⟩ := hex
      rcases List.mem_cons.mp hentry with rfl | hentry
      · cases (preserved_addressesOf p a ha).symm.trans hown
      · exact ⟨entry, hentry, a, ha, hown⟩
  | true =>
      have hips := h₀.wired.addressed p hp hmade
      rw [hmade] at hpre hdisconnect
      refine (unless_disconnectOwned hdisconnect hips (fun s hs hanswer => ?_)
        fun s e hs hanswer => .inl ?_).pre hpre
      · have hplaced := hs.building.placed.without hs.building.wired hs.ports
          (by rw [hmade]; exact List.mem_cons_self) true fun _ => rfl
        rw [filter_networks hs.building.placed.nets] at hplaced
        have hturn := hs.building.congr (level_turn env (.deletePort p.id) s)
        exact ⟨hturn.dropped hplaced, trivial, .inr (did_of_answer rfl hanswer hs.building.since)⟩
      · exact spoiled_dropping howned (.inr rfl) hs.building.since hanswer

/-- The networks, then the container. -/
theorem unless_removeContainer :
    Unless (Spoiled (harmful r (.delete force)) calls)
      (fun s => Dropping u k calls (fun _ => True) r.addresses s ∧ Lists u r.addresses s)
      (fun _ => Gone u k calls none) E (Docker.removeContainer env u) := by
  refine unless_look fun held => ?_
  have hforget : Within (Kept (Spoiled (harmful r (.delete force)) calls))
      (onlyIf (held.containerId ≠ none) (call env (.docker .remove u) fun s =>
        { s with dockerContainers := s.dockerContainers.filter (some · ≠ held.containerId) })) :=
    Within.onlyIf (within_call (fun _ h => h.mono (List.suffix_cons ..)) fun _ h =>
      h.mono (List.suffix_cons ..))
  by_cases heq : held.addresses = r.addresses
  · rw [heq]
    have hloop : Unless (Spoiled (harmful r (.delete force)) calls)
        (Dropping u k calls (fun _ => True) r.addresses) (fun _ => Dropping u k calls (fun _ => True) []) E
        (forEach r.addresses fun entry => Docker.disconnectContainerFromNetwork env u entry.2) :=
      unless_forEach r.addresses fun entry rest _ => unless_dropNetwork howned
    refine Unless.bind (J := fun _ => Gone u k calls none)
      (hloop.conseq (fun s hs => hs.1.1) (fun _ s hs => ?_) fun _ _ hs => hs) fun _ => ?_
    · obtain ⟨hbuilding, -, hgoing⟩ := hs
      rcases hgoing with ⟨entry, hentry, -⟩ | hdid
      · cases hentry
      · exact ⟨hbuilding, hdid, nofun⟩
    · refine unless_onlyIf (fun _ => ?_) fun _ _ hs => hs
      refine unless_call (fun _ => rfl) (fun s hs _ => ?_) fun _ _ hs hanswer => .inl (hs.spoiled rfl hanswer)
      exact Leveled.congr (leveled_turn _ hs) (level_undock _ _)
  · refine ⟨(within_forEach fun entry _ => ?_).bind fun _ => hforget, fun s hs => absurd ?_ heq⟩
    · exact Docker.within_disconnectContainerFromNetwork u _
    · have hheld : (s.mem u).val = held := hs.2
      rw [← hheld]
      exact hs.1.2

/-- The driver's delete. -/
theorem unless_driverDelete :
    Unless (Spoiled (harmful r (.delete force)) calls)
      (fun s => Dropping u k calls (fun _ => True) r.addresses s ∧ Lists u r.addresses s)
      (fun _ => Gone u k calls none) E (Docker.delete env u force) := by
  refine Unless.bind (J := fun release s => release = true ∧ Gone u k calls none s) ?_ fun release => ?_
  · refine Unless.tryExcept (F := fun _ _ => False) ?_ fun e => unless_never
      (within_ite (within_pure _) (within_ite (within_pure _) (within_raise e)))
    exact (unless_removeContainer howned).bind fun _ => (unless_pure true).pre fun s hs => ⟨rfl, hs⟩
  · refine unless_onlyIf (fun _ => ?_) fun hno s hs => absurd hs.1 hno
    exact (unless_gone rfl).pre fun s hs => hs.2

end Delete

/-! ## The volumes, and the row -/

section Gone

variable {r : Record} {force : Bool}

/-- One volume is detached. -/
theorem unless_detachVolume {v : VolMap} :
    Unless (Spoiled (harmful r (.delete force)) calls) (Gone u k calls (some (v :: vs)))
      (fun _ => Gone u k calls (some vs)) E (detachVolume env (!force) v) := by
  refine Unless.bind (J := fun _ => Gone u k calls (some (v :: vs))) (unless_read _ fun _ hs => hs)
    fun users => ?_
  have hdetach (s : World) (hs : Gone u k calls (some (v :: vs)) s) : Gone u k calls (some (v :: vs))
      { s with connected := s.connected.erase v.volumeId } :=
    Leveled.congr hs (level_moved _ (List.Sublist.refl _))
  refine Unless.bind (J := fun _ => Gone u k calls (some (v :: vs))) (unless_onlyIf (fun _ => ?_)
    fun _ _ hs => hs) fun _ => ?_
  · have hcall {F : Exn → World → Prop} (hraise : ∀ s e, Gone u k calls (some (v :: vs)) s →
        env.answer s.tick (.detachVolume v.id) = .raise e →
        Spoiled (harmful r (.delete force)) calls (s.turn env (.detachVolume v.id)) ∨
          F e (s.turn env (.detachVolume v.id))) :
        Unless (Spoiled (harmful r (.delete force)) calls) (Gone u k calls (some (v :: vs)))
          (fun _ => Gone u k calls (some (v :: vs))) F (call env (.detachVolume v.id) fun s =>
            { s with connected := s.connected.erase v.volumeId }) :=
      unless_call (fun _ => rfl) (fun s hs _ => hdetach _ (leveled_turn _ hs)) hraise
    cases force with
    | true => exact (hcall fun _ _ hs _ => .inr (leveled_turn _ hs)).swallow
    | false => exact hcall fun _ _ hs hanswer => .inl (hs.spoiled rfl hanswer)
  · refine unless_call (fun _ => rfl) (fun s hs _ => ?_) fun _ _ hs hanswer => .inl (hs.spoiled rfl hanswer)
    have hmoved : Gone u k calls (some (v :: vs)) { s.turn env (.destroyVolmap v.id) with
        volmaps := s.volmaps.filter (·.id ≠ v.id) } :=
      Leveled.congr (leveled_turn _ hs) (level_moved _ List.filter_sublist)
    refine ⟨hmoved.building, hmoved.did, fun ws hws w hw hu => ?_⟩
    cases hws
    obtain ⟨x, hx, hid⟩ := hmoved.left _ rfl w hw hu
    rcases List.mem_cons.mp hx with rfl | hx
    · exact absurd hid.symm (of_decide_eq_true (List.mem_filter.mp hw).2)
    · exact ⟨x, hx, hid⟩

theorem unless_detachEach :
    Unless (Spoiled (harmful r (.delete force)) calls) (Gone u k calls (some vs))
      (fun removed s => removed.length ≤ vs.length ∧ Gone u k calls (some []) s) E
      (detachEach env (!force) vs) := by
  induction vs with
  | nil => exact (unless_pure []).pre fun s hs => ⟨Nat.le_refl _, hs⟩
  | cons v vs ih =>
      refine Unless.bind (J := fun _ => Gone u k calls (some (v :: vs))) (unless_read _ fun _ hs => hs)
        fun last => ?_
      refine unless_detachVolume.bind fun _ => unless_ite (fun _ => ?_) fun _ => ?_
      · refine (unless_gone rfl).bind fun _ => ih.bind fun rest => ?_
        exact (unless_pure (v :: rest)).pre fun s hs => ⟨Nat.succ_le_succ hs.1, hs.2⟩
      · exact ih.post fun rest s hs => ⟨Nat.le_succ_of_le hs.1, hs.2⟩

theorem unless_pollDeleted (n : Nat) (ws : List VolMap) :
    Unless (Spoiled (harmful r (.delete force)) calls) (Gone u k calls left)
      (fun _ => Gone u k calls left) E (pollDeleted env n ws) := by
  have hpure (b : Bool) : Unless (Spoiled (harmful r (.delete force)) calls) (Gone u k calls left)
      (fun _ => Gone u k calls left) E (pure b) := unless_pure (J := fun _ => Gone u k calls left) b
  induction n generalizing ws with
  | zero => cases ws <;> exact hpure _
  | succ n ih =>
      cases ws with
      | nil => exact hpure _
      | cons w ws =>
          unfold pollDeleted
          split
          · exact hpure _
          · refine Unless.bind (J := fun _ => Gone u k calls left) ?_ fun state => ?_
            · exact (unless_gone rfl).bind fun _ => unless_read _ fun _ hs => hs
            cases state with
            | ready => exact ih _
            | error => exact hpure _
            | notYet => exact ih _

/-- The volumes of a container that is deleted. -/
theorem unless_detachAll (hprompt : Prompt env k) :
    Unless (Spoiled (harmful r (.delete force)) calls) (Gone u k calls none)
      (fun _ => Gone u k calls (some [])) E (detachAll env (!force) (.container u)) := by
  have hkept (vs : List VolMap) : Within (Kept (Spoiled (harmful r (.delete force)) calls)) (do
      let removed ← detachEach env (!force) vs
      waitForVolumesDeleted env (fun y msg => failContainer env failDepth y msg true) (.container u)
        removed) :=
    (within_detachEach _ _).bind fun _ =>
      within_waitForVolumesDeleted (fun _ => within_failContainer _ _ _ _) _
  refine Unless.bind (J := fun vs s => vs.length ≤ k ∧ Gone u k calls (some vs) s) ?_ fun vs => ?_
  · refine (unless_gone rfl).bind fun _ => unless_read _ fun s hs => ⟨?_, hs.building, hs.did, ?_⟩
    · have hcount := hs.building.few
      unfold held at hcount
      rw [List.countP_eq_length_filter] at hcount
      exact hcount
    · intro ws hws v hv hu
      cases hws
      exact ⟨v, List.mem_filter.mpr ⟨hv, decide_eq_true hu⟩, rfl⟩
  · refine Unless.bind (J := fun removed s => removed.length ≤ k ∧ Gone u k calls (some []) s) ?_
      fun removed => ?_
    · refine unless_assuming (within_detachEach _ _) fun hle => ?_
      exact unless_detachEach.post fun rest s hs => ⟨Nat.le_trans hs.1 hle, hs.2⟩
    · refine unless_assuming ?_ fun hle => ?_
      · exact within_waitForVolumesDeleted (fun _ => within_failContainer _ _ _ _) _
      refine Unless.bind ((unless_pollDeleted env.polls removed).knowing fun s _ => hprompt removed hle s)
        fun deleted => unless_ite (fun _ => ?_) fun hno => ?_
      · exact (unless_pure ()).pre fun s hs => hs.1
      · refine ⟨(within_failContainer _ _ _ _).bind fun _ => within_raise _, fun s hs => ?_⟩
        rw [Bool.eq_false_iff.mpr hno] at hs
        exact absurd rfl hs.2

theorem unless_markGone :
    Unless (Spoiled (harmful r (.delete force)) calls) (Gone u k calls left)
      (fun _ => Gone u k calls left) E (mark env u none) := by
  refine Unless.bind (J := fun _ => Gone u k calls left) ?_ fun _ => ?_
  · exact unless_assign fun s hs => leveled_setTaskState (I := Gone u k calls left) none s hs
  · refine unless_save (fun s hs => ?_) (fun s row hs hrow _ => ?_) fun s row e hs hrow hanswer => ?_
    · obtain ⟨r, hr, -⟩ := hs.building.row
      exact ⟨r, hr⟩
    · have hturn : Gone u k calls left (s.turn env (.save u (s.merged u row))) := leveled_turn _ hs
      exact ⟨hturn.building.kept hrow, hturn.did, hturn.left⟩
    · exact .inl (hs.spoiled rfl hanswer)

/-- When nothing is left, the row goes. -/
theorem unless_destroyGone :
    Unless (Spoiled (harmful r (.delete force)) calls) (Gone u k calls (some []))
      (fun _ => Rests u) E (destroy env u) := by
  refine unless_destroy (fun s hs => ?_) (fun s e hs hrefused => ?_) fun s e hs hanswer =>
    .inl (hs.spoiled rfl hanswer)
  · refine rests_dropRows hs.building.wired fun p hp => ?_
    refine Bool.eq_false_iff.mpr fun hmade => ?_
    rcases hs.building.placed.made p hp hmade with hin | ⟨-, -, net, hmem, -⟩
    · cases hin
    · cases hmem
  · rcases hrefused with hnone | href
    · obtain ⟨row, hrow, -⟩ := hs.building.row
      cases hnone.symm.trans hrow
    · obtain ⟨v, hv, hin⟩ := referred_iff.mp href
      obtain ⟨w, hw, -⟩ := hs.left _ rfl v hv (List.mem_singleton.mp hin)
      cases hw

end Gone

/-- What a delete of a container with a port of its own does once it owns the record. -/
theorem unless_deleteOwned (hprompt : Prompt env k) {r : Record} {force : Bool}
    (howned : ∃ entry ∈ r.addresses, owned entry) :
    Unless (Spoiled (harmful r (.delete force)) calls)
      (fun s => Settled u k calls (fun _ => True) true false s ∧ Lists u r.addresses s)
      (fun _ => Rests u) (fun _ => Rests u)
      (doContainerDelete env (defaultDrivers env) (.container u) force) := by
  let I : World → Prop := fun s => Settled u k calls (fun _ => True) true false s ∧ Lists u r.addresses s
  have hE (e : Exn) (s : World) (hs : I s) : Rests u s := hs.1.rests
  have hfail (e : Exn) : Within (Kept (Spoiled (harmful r (.delete force)) calls))
      (failFor env (.container u) Reasons.notDeleted false e) := within_failFor _ _ _ e
  have hdropping (s : World) (hs : I s) :
      Dropping u k calls (fun _ => True) r.addresses s ∧ Lists u r.addresses s := by
    obtain ⟨h, hlists⟩ := hs
    obtain ⟨entry, hentry, hown⟩ := howned
    have hhosted := h.hosted hlists (List.ne_nil_of_mem hentry)
    refine ⟨⟨⟨h.wired, hhosted.row, hhosted.obj, ?_, fun _ hin => absurd hin List.not_mem_nil, nofun, h.few,
      h.since⟩, trivial, .inl ⟨entry, hentry, hown⟩⟩, hlists⟩
    exact hlists ▸ h.obj (.inl rfl)
  have hbody : Unless (Spoiled (harmful r (.delete force)) calls) I
      (fun _ => Gone u k calls (some [])) (fun _ => I)
      (deleteOwned env (defaultDrivers env) (.container u) force) := by
    refine Unless.bind (J := fun _ => Gone u k calls none) ?_ fun _ => unless_detachAll hprompt
    exact ((unless_driverDelete howned).pre hdropping).reraisingIf hfail
  refine Unless.bind (unless_keeps (I := I) (within_ask _ _ rfl) (within_ask _ _ rfl) hE) fun _ => ?_
  refine Unless.bind ((unless_updateTaskState (I := I) (J := fun _ => Gone u k calls (some []))
    (fun s hs _ => hs) ?_ hbody (fun _ => unless_markGone) fun e => ?_).conseq (fun _ hs => hs)
    (fun _ _ hs => hs) hE) fun _ => ?_
  · exact (unless_mark _ fun _ _ hs => hs).pre fun _ hs => hs.1
  · exact unless_mark none fun _ _ hs => hs
  refine Unless.bind (J := fun _ => Gone u k calls (some [])) ?_ fun _ => ?_
  · refine Unless.swallow ?_
    exact unless_call (fun _ => rfl) (fun _ hs _ => leveled_turn _ hs) fun _ _ hs _ => .inr (leveled_turn _ hs)
  refine Unless.bind (J := fun _ => Gone u k calls (some [])) ?_ fun _ => unless_destroyGone
  refine Unless.swallow ?_
  exact unless_call (fun _ => rfl) (fun _ hs _ => Leveled.congr (leveled_turn _ hs) (level_freed u _))
    fun _ _ hs _ => .inr (leveled_turn _ hs)

/-- The thread of a delete, once the record is brought up to date. -/
theorem unless_doContainerDelete (hprompt : Prompt env k) {r : Record} {force : Bool} :
    Unless (Spoiled (harmful r (.delete force)) calls)
      (fun s => Settled u k calls (fun _ => True) true false s ∧ Lists u r.addresses s)
      (fun _ => Rests u) (fun _ => Rests u)
      (doContainerDelete env (defaultDrivers env) (.container u) force) := by
  by_cases howned : ∃ entry ∈ r.addresses, owned entry
  · exact unless_deleteOwned hprompt howned
  refine (unless_deleteKept hprompt force).pre fun s hs => ?_
  obtain ⟨h, hlists⟩ := hs
  have hplaced : Placed s.wires r.addresses [] := hlists ▸ h.obj (.inl rfl)
  have hnone : NoneMade s.wires := by
    intro p hp
    refine Bool.eq_false_iff.mpr fun hmade => howned ?_
    rcases hplaced.made p hp hmade with hin | ⟨-, -, net, hmem, -⟩
    · exact ⟨_, hin, owned_addressesOf (h.wired.addressed p hp hmade)⟩
    · cases hmem
  refine ⟨h.with hnone, fun entry hentry a ha => ?_⟩
  have hin : entry ∈ r.addresses := by
    rw [← show (s.mem u).val.addresses = r.addresses from hlists]
    exact hentry
  cases hkeep : a.preserveOnDelete with
  | true => rfl
  | false => exact absurd ⟨entry, hin, a, ha, hkeep⟩ howned

/-- A record without a host is destroyed at once. -/
theorem unless_destroyBare {r : Record} (hhost : r.host = none) :
    Unless (Spoiled bad calls) (fun s => Rests u s ∧ s.db u = some r) (fun _ => Rests u)
      (fun _ => Rests u) (destroy env u) := by
  refine unless_destroy (fun s hs => ?_) (fun s e hs _ => hs.1) fun s e hs _ => .inr (leveled_turn _ hs.1)
  obtain ⟨h, hrow⟩ := hs
  refine rests_dropRows h.wired fun p hp => Bool.eq_false_iff.mpr fun hmade => ?_
  rcases (h.placed r hrow).made p hp hmade with hin | ⟨-, -, net, hmem, -⟩
  · rw [(h.bare r hrow hhost).1] at hin
    cases hin
  · cases hmem

end DockerPorts

end Zun
