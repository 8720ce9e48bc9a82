import Zun.Container.DockerPorts

/-!
# Building a container with its ports

From its first port on, a create or a rebuild has made or bound something that the saved record does
not name.  `Building` is what is so meanwhile: the ports that there are have their place in the
addresses that are being put together, or their turn is still to come.  Only the `save` at the end
makes it good, so no call on the way may fail.
-/

namespace Zun

open Effect Prog World

namespace DockerPorts

variable {u : Uuid} {k : Nat} {calls : List (Call × Answer)} {s s' : World} {env : Env}
  {addresses : List (NetId × List Addr)} {rest : List RequestedNetwork} {net : RequestedNetwork}
  {listed : Option (List (NetId × List Addr))}
  {bad : Call × Answer → List (Call × Answer) → Prop} {E : Exn → World → Prop}

/-! ## The calls so far -/

/-- The saved record is behind. -/
def Exposed (calls : List (Call × Answer)) (s : World) : Prop :=
  ∃ before, s.log = before ++ calls ∧ unrecorded before = true

/-- A call of this kind has succeeded since. -/
def Did (kind : Call → Bool) (calls : List (Call × Answer)) (s : World) : Prop :=
  ∃ before, s.log = before ++ calls ∧ did kind before

theorem unrecorded_cons {c : Call} {a : Answer} {before : List (Call × Answer)}
    (hc : isSave c = false ∨ a ≠ .ok) (h : unrecorded before = true) :
    unrecorded ((c, a) :: before) = true := by
  show (if a = .ok ∧ isSave c then false else (a == .ok && movesPort c) || unrecorded before) = true
  rw [h, Bool.or_true, if_neg]
  rintro ⟨ha, hsave⟩
  rcases hc with hc | hc
  · cases hc.symm.trans hsave
  · exact hc ha

theorem unrecorded_of_moves {c : Call} (hc : movesPort c = true) (before : List (Call × Answer)) :
    unrecorded ((c, .ok) :: before) = true := by
  cases c with
  | createPort u n => rfl
  | updatePort p => rfl
  | deletePort p => rfl
  | _ => cases hc

theorem did_of_unrecorded {before : List (Call × Answer)} (h : unrecorded before = true) :
    did movesPort before := by
  induction before with
  | nil => cases h
  | cons x before ih =>
      obtain ⟨c, a⟩ := x
      have hcase : (if a = .ok ∧ isSave c then false
          else (a == .ok && movesPort c) || unrecorded before) = true := h
      split at hcase
      · cases hcase
      rcases (Bool.or_eq_true _ _).mp hcase with hmoves | hbefore
      · obtain ⟨ha, hc⟩ := (Bool.and_eq_true _ _).mp hmoves
        exact ⟨c, List.mem_cons.mpr (.inl (by rw [eq_of_beq ha])), hc⟩
      · obtain ⟨c', hc', hkind⟩ := ih hbefore
        exact ⟨c', List.mem_cons_of_mem _ hc', hkind⟩

theorem Exposed.did (h : Exposed calls s) : Did movesPort calls s := by
  obtain ⟨before, hlog, hunrecorded⟩ := h
  exact ⟨before, hlog, did_of_unrecorded hunrecorded⟩

theorem Exposed.turn (h : Exposed calls s) {c : Call} (hc : isSave c = false) :
    Exposed calls (s.turn env c) := by
  obtain ⟨before, hlog, hunrecorded⟩ := h
  refine ⟨(c, env.answer s.tick c) :: before, ?_, unrecorded_cons (.inl hc) hunrecorded⟩
  show (c, env.answer s.tick c) :: s.log = _
  rw [hlog]
  rfl

theorem exposed_of_moves {c : Call} (hc : movesPort c = true) (hanswer : env.answer s.tick c = .ok)
    (hsince : calls <:+ s.log) : Exposed calls (s.turn env c) := by
  obtain ⟨before, hlog⟩ := hsince
  refine ⟨(c, .ok) :: before, ?_, unrecorded_of_moves hc before⟩
  show (c, env.answer s.tick c) :: s.log = _
  rw [hanswer, ← hlog]
  rfl

theorem Did.mono {kind : Call → Bool} (h : Did kind calls s) (hlog : s.log <:+ s'.log) :
    Did kind calls s' := by
  obtain ⟨before, hs, c, hc, hkind⟩ := h
  obtain ⟨more, hmore⟩ := hlog
  refine ⟨more ++ before, by rw [← hmore, hs, List.append_assoc], c, ?_, hkind⟩
  exact List.mem_append_right _ hc

/-! ## The state of a build -/

/-- The container is being built: these addresses are put together so far, the object lists those, and
the turn of these networks is still to come. -/
structure Building (u : Uuid) (k : Nat) (calls : List (Call × Answer))
    (addresses : List (NetId × List Addr)) (rest : List RequestedNetwork)
    (listed : Option (List (NetId × List Addr))) (s : World) : Prop where
  wired : Wired s.wires s.nextId
  row : ∃ r, s.db u = some r ∧ r.host ≠ none
  host : (s.mem u).val.host ≠ none
  placed : Placed s.wires addresses rest
  asked : ∀ net ∈ rest, Asked s.wires net
  obj : ∀ l, listed = some l → (s.mem u).val.addresses = l ∧ (s.mem u).changed.addresses = true
  few : Manager.held u s ≤ k
  since : calls <:+ s.log

theorem Building.congr (h : Building u k calls addresses rest listed s) (hs : Level u s s') :
    Building u k calls addresses rest listed s' where
  wired := by
    rw [hs.wires]
    exact h.wired.mono hs.next
  row := by
    obtain ⟨r, hr, hhost⟩ := h.row
    exact ⟨r, hs.row.trans hr, hhost⟩
  host := by
    rw [hs.host]
    exact h.host
  placed := by
    rw [hs.wires]
    exact h.placed
  asked := by
    rw [hs.wires]
    exact h.asked
  obj l hl := by
    rw [hs.addresses, hs.changed]
    exact h.obj l hl
  few := Nat.le_trans (held_mono hs.maps) h.few
  since := h.since.trans hs.log

instance : Leveled u (Building u k calls addresses rest listed) := ⟨Building.congr⟩

theorem Asked.cons {wires : List Port} (h : Asked wires net) (p : Port) : Asked (p :: wires) net := by
  rcases h with h | ⟨q, hq, hrest⟩
  · exact .inl h
  · exact .inr ⟨q, List.mem_cons_of_mem _ hq, hrest⟩

/-- The port of the next network was there. -/
theorem Building.bind (h : Building u k calls addresses (net :: rest) listed s) {p : Port}
    (hp : p ∈ s.ports) (hport : net.port = some p.id)
    (hnew : net.network ∉ addresses.map (·.1)) :
    Building u k calls
      (addresses ++ [(net.network, Neutron.addressesOf net.preserveOnDelete p)]) rest listed s := by
  have hwire := mem_wires hp
  have hasked : p.unplugged.network = net.network ∧ net.preserveOnDelete = !p.unplugged.zunMade := by
    rcases h.asked net List.mem_cons_self with ⟨hnone, -⟩ | ⟨q, hq, hqport, hqnet, hkeep⟩
    · cases hport.symm.trans hnone
    · cases h.wired.eq_of_id hq hwire (Option.some.inj (hqport.symm.trans hport))
      exact ⟨hqnet, hkeep⟩
  have hplaced := h.placed.bind h.wired hwire hport hasked.1 hnew
  rw [← hasked.2, addressesOf_unplugged] at hplaced
  exact ⟨h.wired, h.row, h.host, hplaced, fun net' hmem => h.asked net' (List.mem_cons_of_mem _ hmem),
    h.obj, h.few, h.since⟩

/-- The port of the next network was made. -/
theorem Building.make (h : Building u k calls addresses (net :: rest) listed s)
    (hips : env.fixedIps s.tick ≠ []) (hport : net.port = none)
    (hnew : net.network ∉ addresses.map (·.1)) :
    Building u k calls (addresses ++ [(net.network, Neutron.addressesOf net.preserveOnDelete
        (Neutron.newPort env u net.network s))]) rest listed
      (Neutron.addPort (Neutron.newPort env u net.network s) s) := by
  have hkeep : net.preserveOnDelete = false := by
    rcases h.asked net List.mem_cons_self with ⟨-, hkeep⟩ | ⟨q, -, hqport, -⟩
    · exact hkeep
    · cases hport.symm.trans hqport
  rw [hkeep]
  refine ⟨?_, h.row, h.host, ?_, fun net' hmem => ?_, h.obj, h.few, h.since⟩
  · rw [wires_addPort]
    exact h.wired.add rfl hips
  · rw [wires_addPort]
    exact h.placed.make hport rfl rfl hnew
  · rw [wires_addPort]
    exact (h.asked net' (List.mem_cons_of_mem _ hmem)).cons _

theorem Building.skip (h : Building u k calls addresses (net :: rest) listed s)
    (hold : net.network ∈ addresses.map (·.1)) : Building u k calls addresses rest listed s :=
  ⟨h.wired, h.row, h.host, h.placed.skip hold,
    fun net' hmem => h.asked net' (List.mem_cons_of_mem _ hmem), h.obj, h.few, h.since⟩

/-- What a build leaves when its record is saved. -/
theorem Building.saved (h : Building u k calls addresses [] (some addresses) s) {row : Record}
    (hrow : s.db u = some row) : Settled u k calls (fun _ => True) true false (s.saved u row) where
  wired := h.wired
  row := by
    obtain ⟨r, hr, hhost⟩ := h.row
    cases hrow.symm.trans hr
    obtain ⟨haddr, hchanged⟩ := h.obj addresses rfl
    refine ⟨_, saved_db_self row, ?_, fun hnone => ?_⟩
    · show Placed s.wires _ []
      rw [merged_addresses, hchanged, haddr]
      exact h.placed
    · rw [saved_val] at hnone
      rcases hnone with hnone | hnone
      · rcases merged_host (s := s) (u := u) row with heq | heq
        · exact absurd (heq.symm.trans hnone) h.host
        · exact absurd (heq.symm.trans hnone) hhost
      · exact absurd hnone h.host
  obj _ := by
    rw [saved_val, (h.obj addresses rfl).1]
    exact h.placed
  clean := nofun
  ports := trivial
  few := h.few
  since := h.since

/-! ## The steps of a build -/

/-- A port is got for the next network.  From then on the saved record is behind. -/
theorem unless_createOrUpdatePort (hips : ∀ n, env.fixedIps n ≠ [])
    (hnew : net.network ∉ addresses.map (·.1)) {P : World → Prop}
    (hbuild : ∀ s, P s → Building u k calls addresses (net :: rest) listed s)
    (hfail : ∀ s c e, P s → movesPort c = true → builds c = true → env.answer s.tick c = .raise e →
      Spoiled bad calls (s.turn env c) ∨ E e (s.turn env c)) :
    Unless (Spoiled bad calls) P (fun addrs s =>
      Building u k calls (addresses ++ [(net.network, addrs)]) rest listed s ∧ Exposed calls s) E
      (Neutron.createOrUpdatePort env u net) := by
  unfold Neutron.createOrUpdatePort
  cases hport : net.port with
  | some p =>
      refine Unless.bind (J := fun _ s => Building u k calls addresses (net :: rest) listed s ∧
        Exposed calls s) ?_ fun _ => unless_look fun found => ?_
      · refine unless_call (fun _ => rfl) (fun s hs hanswer => ?_) fun s e hs => hfail s _ e hs rfl rfl
        have h := hbuild s hs
        refine ⟨(h.congr (level_turn env _ s)).congr (level_setDevice p _ _), ?_⟩
        exact exposed_of_moves rfl hanswer h.since
      · cases found with
        | some port =>
            refine (unless_pure _).pre fun s hs => ?_
            obtain ⟨⟨h, hexposed⟩, hfound⟩ := hs
            have hid : port.id = p := by simpa using List.find?_some hfound
            have hthere := List.mem_of_find?_eq_some hfound
            exact ⟨h.bind hthere (by rw [hport, hid]) hnew, hexposed⟩
        | none =>
            refine ⟨within_raise _, fun s hs => ?_⟩
            obtain ⟨⟨h, -⟩, hfound⟩ := hs
            -- The port that was asked for is there.
            rcases h.asked net List.mem_cons_self with ⟨hnone, -⟩ | ⟨q, hq, hqport, -⟩
            · cases hport.symm.trans hnone
            · obtain ⟨q', hq', hunplugged⟩ := of_mem_wires hq
              have hid : q'.id = p := by
                rw [← hunplugged] at hqport
                exact Option.some.inj (hqport.symm.trans hport)
              exact absurd (decide_eq_true hid) (List.find?_eq_none.mp hfound q' hq')
  | none =>
      refine Unless.bind (J := fun _ s => ∃ p, s.ports.head? = some p ∧
        Building u k calls (addresses ++ [(net.network, Neutron.addressesOf net.preserveOnDelete p)])
          rest listed s ∧ Exposed calls s) ?_ fun _ => unless_look fun made => ?_
      · refine unless_call (fun _ => rfl) (fun s hs hanswer => ?_) fun s e hs => hfail s _ e hs rfl rfl
        have h := hbuild s hs
        exact ⟨_, rfl, (h.congr (level_turn env _ s)).make (hips _) hport hnew,
          exposed_of_moves rfl hanswer h.since⟩
      · refine (unless_pure _).pre fun s hs => ?_
        obtain ⟨⟨p, hhead, h⟩, hmade⟩ := hs
        rw [hhead] at hmade
        subst hmade
        exact h

/-- An assignment of a build to a field that is not about ports. -/
theorem unless_exposedAssign {I : World → Prop} [Leveled u I] {f : Obj → Obj}
    (hhost : ∀ o, (f o).val.host = o.val.host) (haddr : ∀ o, (f o).val.addresses = o.val.addresses)
    (hchanged : ∀ o, (f o).changed.addresses = o.changed.addresses)
    (hmemory : ∀ o, (f o).val.memory = o.val.memory) :
    Unless (Spoiled bad calls) (fun s => I s ∧ Exposed calls s) (fun _ s => I s ∧ Exposed calls s) E
      (assign u f) :=
  unless_assign fun s hs => ⟨Leveled.congr hs.1 (level_setMem hhost haddr hchanged hmemory s), hs.2⟩

section Exposed

variable (hbad : ∀ x before, x.2 ≠ .ok → unrecorded before = true → bad x before)

include hbad

/-- When the saved record is behind, a failure is harmful. -/
theorem spoiled_of_exposed {c : Call} {e : Exn} (h : Exposed calls s)
    (hanswer : env.answer s.tick c = .raise e) : Spoiled bad calls (s.turn env c) := by
  obtain ⟨before, hlog, hunrecorded⟩ := h
  exact spoiled_turn hlog hanswer (hbad _ _ nofun hunrecorded)

/-- A call of a build that does not move a port. -/
theorem unless_exposed {I : World → Prop} [Leveled u I] {c : Call} (hc : isSave c = false) :
    Unless (Spoiled bad calls) (fun s => I s ∧ Exposed calls s) (fun _ s => I s ∧ Exposed calls s) E
      (call env c) :=
  unless_call (fun _ => rfl) (fun _ hs _ => ⟨leveled_turn c hs.1, hs.2.turn hc⟩)
    fun _ _ hs hanswer => .inl (spoiled_of_exposed hbad hs.2 hanswer)

/-- The networks after the first. -/
theorem unless_setupNetworkForContainer (hips : ∀ n, env.fixedIps n ≠ [])
    (sofar : List (NetId × List Addr)) :
    Unless (Spoiled bad calls)
      (fun s => Building u k calls sofar rest (some sofar) s ∧ Exposed calls s)
      (fun _ s => ∃ all, Building u k calls all [] (some all) s ∧ Exposed calls s) E
      (Docker.setupNetworkForContainer env u rest) := by
  induction rest generalizing sofar with
  | nil =>
      show Unless _ _ _ _ (pure ())
      exact (unless_pure ()).pre fun s hs => ⟨sofar, hs⟩
  | cons net rest ih =>
      show Unless _ _ _ _ (obj u (·.addresses) >>= _)
      refine unless_look fun found => unless_ite (fun hold => ?_) fun hnew => ?_
      · refine (ih sofar).pre fun s hs => ?_
        obtain ⟨⟨h, hexposed⟩, hfound⟩ := hs
        have hsame : found = sofar := hfound.symm.trans (h.obj _ rfl).1
        subst hsame
        obtain ⟨entry, hentry, hnet⟩ := List.any_eq_true.mp hold
        exact ⟨h.skip (List.mem_map.mpr ⟨entry, hentry, of_decide_eq_true hnet⟩), hexposed⟩
      · refine Unless.bind (J := fun addrs s =>
          Building u k calls (sofar ++ [(net.network, addrs)]) rest (some sofar) s ∧
            Exposed calls s) ?_ fun addrs => ?_
        · refine unless_of_forall (Docker.within_connectContainerToNetwork u net) fun s₀ hs₀ => ?_
          obtain ⟨⟨h₀, hexposed₀⟩, hfound⟩ := hs₀
          have hsame : found = sofar := hfound.symm.trans (h₀.obj _ rfl).1
          subst hsame
          have hout : net.network ∉ found.map (·.1) := by
            intro hin
            obtain ⟨entry, hentry, hnet⟩ := List.mem_map.mp hin
            exact hnew (List.any_eq_true.mpr ⟨entry, hentry, decide_eq_true hnet⟩)
          refine Unless.bind (unless_createOrUpdatePort hips hout (fun s hs => hs ▸ h₀)
            fun s c e hs _ _ hanswer => .inl ?_) fun addrs => ?_
          · exact spoiled_of_exposed hbad (hs ▸ hexposed₀) hanswer
          · exact (unless_exposed hbad rfl).bind fun _ => (unless_pure addrs).pre fun _ hs => hs
        · refine Unless.bind (J := fun _ s => Building u k calls (sofar ++ [(net.network, addrs)])
            rest (some (sofar ++ [(net.network, addrs)])) s ∧ Exposed calls s) ?_ fun _ => ih _
          refine unless_assign fun s hs => ?_
          obtain ⟨h, hexposed⟩ := hs
          obtain ⟨haddr, hchanged⟩ := h.obj _ rfl
          refine ⟨⟨h.wired, h.row, ?_, h.placed, h.asked, fun l hl => ?_, h.few, h.since⟩, hexposed⟩
          · rw [setMem_mem_self]
            exact h.host
          · cases hl
            rw [setMem_mem_self]
            exact ⟨by rw [← haddr]; rfl, hchanged⟩

/-- The end of a build: what docker says of the container, and the `save`. -/
theorem unless_finishBuild (all : List (NetId × List Addr)) :
    Unless (Spoiled bad calls)
      (fun s => Building u k calls all [] (some all) s ∧ Exposed calls s)
      (fun _ s => Settled u k calls (fun _ => True) true false s ∧ Did movesPort calls s) E (do
        let addresses ← obj u (·.addresses)
        assign u (Obj.setAddresses addresses)
        call env (.docker .inspect u)
        assign u Docker.populateCreated
        save env u) := by
  refine unless_look fun found => Unless.bind (J := fun _ s =>
    Building u k calls all [] (some all) s ∧ Exposed calls s) ?_ fun _ => ?_
  · refine unless_assign fun s hs => ?_
    obtain ⟨⟨h, hexposed⟩, hfound⟩ := hs
    have hsame : found = all := hfound.symm.trans (h.obj _ rfl).1
    subst hsame
    refine ⟨⟨h.wired, h.row, ?_, h.placed, h.asked, fun l hl => ?_, h.few, h.since⟩, hexposed⟩
    · rw [setMem_mem_self]
      exact h.host
    · cases hl
      rw [setMem_mem_self]
      exact ⟨rfl, rfl⟩
  refine (unless_exposed hbad rfl).bind fun _ => ?_
  refine Unless.bind (unless_exposedAssign (I := Building u k calls all [] (some all))
    (fun o => ?_) (fun o => ?_) (fun o => ?_) fun o => ?_) fun _ => ?_
  · show (Docker.populateCreated o).val.host = _
    simp only [Docker.populateCreated]
    split <;> rfl
  · show (Docker.populateCreated o).val.addresses = _
    simp only [Docker.populateCreated]
    split <;> rfl
  · show (Docker.populateCreated o).changed.addresses = _
    simp only [Docker.populateCreated]
    split <;> rfl
  · show (Docker.populateCreated o).val.memory = _
    simp only [Docker.populateCreated]
    split <;> rfl
  refine unless_save (fun s hs => ?_) (fun s row hs hrow _ => ?_) fun s row e hs hrow hanswer => ?_
  · obtain ⟨r, hr, -⟩ := hs.1.row
    exact ⟨r, hr⟩
  · obtain ⟨h, hexposed⟩ := hs
    exact ⟨(h.congr (level_turn env _ s)).saved hrow, hexposed.did.mono (List.suffix_cons ..)⟩
  · exact .inl (spoiled_of_exposed hbad hs.2 hanswer)

/-- The driver's create, from a state that leads to a build. -/
theorem unless_create (hips : ∀ n, env.fixedIps n ≠ []) {nets : List RequestedNetwork}
    (vols : RequestedVolumes) {P : World → Prop}
    (hcall : ∀ c, builds c = true → movesPort c = false →
      Unless (Spoiled bad calls) P (fun _ => P) E (call env c))
    (hport : ∀ s c e, P s → movesPort c = true → builds c = true →
      env.answer s.tick c = .raise e → Spoiled bad calls (s.turn env c) ∨ E e (s.turn env c))
    (hbuild : ∀ net, nets.getLast? = some net → ∀ s, P s →
      Building u k calls [] (net :: nets.dropLast) none s)
    (hnone : nets.getLast? = none → ∀ e s, P s → E e s) :
    Unless (Spoiled bad calls) P
      (fun _ s => Settled u k calls (fun _ => True) true false s ∧ Did movesPort calls s) E
      (Docker.create env u nets vols) := by
  refine (unless_forEach (P := fun _ => P) nets fun _ _ _ => hcall _ rfl rfl).bind fun _ => ?_
  refine (hcall _ rfl rfl).bind fun _ => ?_
  cases hlast : nets.getLast? with
  | none => exact (unless_raise _).pre fun s hs => hnone hlast _ s hs
  | some net =>
      refine (hcall _ rfl rfl).bind fun _ => ?_
      refine (unless_createOrUpdatePort hips (by simp) (hbuild net hlast) hport).bind fun addrs => ?_
      refine Unless.bind (J := fun _ s => Building u k calls [(net.network, addrs)] nets.dropLast
        (some [(net.network, addrs)]) s ∧ Exposed calls s) ?_ fun _ => ?_
      · refine unless_assign fun s hs => ?_
        obtain ⟨h, hexposed⟩ := hs
        refine ⟨⟨h.wired, h.row, ?_, h.placed, h.asked, fun l hl => ?_, h.few, h.since⟩, hexposed⟩
        · rw [setMem_mem_self]
          exact h.host
        · cases hl
          rw [setMem_mem_self]
          exact ⟨rfl, rfl⟩
      refine Unless.bind (J := fun _ s => Building u k calls [(net.network, addrs)] nets.dropLast
        (some [(net.network, addrs)]) s ∧ Exposed calls s) ?_ fun _ => ?_
      · refine unless_call (fun _ => rfl) (fun s hs _ => ?_)
          fun s e hs hanswer => .inl (spoiled_of_exposed hbad hs.2 hanswer)
        obtain ⟨h, hexposed⟩ := hs
        exact ⟨⟨h.wired.mono (Nat.le_succ _), h.row, h.host, h.placed, h.asked, h.obj, h.few,
          h.since.trans (List.suffix_cons ..)⟩, hexposed.turn rfl⟩
      refine Unless.bind (unless_read (J := fun _ s => Building u k calls [(net.network, addrs)]
        nets.dropLast (some [(net.network, addrs)]) s ∧ Exposed calls s) _ fun _ hs => hs) fun id => ?_
      refine Unless.bind (unless_exposedAssign (I := Building u k calls [(net.network, addrs)]
        nets.dropLast (some [(net.network, addrs)])) (fun _ => rfl) (fun _ => rfl) (fun _ => rfl) fun _ => rfl)
        fun _ => ?_
      refine (unless_exposed hbad rfl).bind fun _ => ?_
      refine (unless_setupNetworkForContainer hbad hips _).bind fun _ => ?_
      refine unless_of_forall ?_ fun s hs => ?_
      · exact (unless_finishBuild (k := k) (E := E) hbad []).kept
      · obtain ⟨all, h⟩ := hs
        exact (unless_finishBuild hbad all).pre fun _ hs => hs ▸ h

end Exposed

end DockerPorts

end Zun
