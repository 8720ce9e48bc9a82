import Zun.Container.DockerPortsAttach

/-!
# Networks that are taken away: detach and delete

A port that was made goes with its network, and one that was brought is only unbound.  As soon as the
first has gone the record is behind: a detach has to be saved then, and a delete has to come to its
end.
-/

namespace Zun

open Effect Prog World Manager

namespace DockerPorts

variable {u : Uuid} {k : Nat} {calls : List (Call × Answer)} {s s' : World} {env : Env}
  {I : World → Prop} {bad : Call × Answer → List (Call × Answer) → Prop}
  {E : Exn → World → Prop} {Q : List Port → Prop} {strict clean : Bool}
  {addresses : List (NetId × List Addr)} {addrs : List Addr} {p : Port}

/-! ## The ports of an entry -/

theorem ownPorts_of_preserved (h : ∀ a ∈ addrs, a.preserveOnDelete = true) :
    Neutron.ownPorts addrs = [] := by
  have hnone : addrs.filter (!·.preserveOnDelete) = [] := by
    refine List.filter_eq_nil_iff.mpr fun a ha => ?_
    rw [h a ha]
    nofun
  unfold Neutron.ownPorts
  rw [hnone]
  rfl

theorem preserved_addressesOf (p : Port) : ∀ a ∈ Neutron.addressesOf true p, a.preserveOnDelete = true := by
  intro a ha
  obtain ⟨ip, -, rfl⟩ := List.mem_map.mp ha
  rfl

theorem owned_addressesOf {n : NetId} (hips : p.fixedIps ≠ []) :
    owned (n, Neutron.addressesOf false p) := by
  obtain ⟨ip, hip⟩ := List.exists_mem_of_ne_nil _ hips
  exact ⟨_, List.mem_map_of_mem hip, rfl⟩

theorem leveled_plain [Leveled u I] (c : Call) : Within (Kept I) (call env c) :=
  within_call (fun _ hs => leveled_turn c hs) fun _ hs => leveled_turn c hs

theorem leveled_unbindPort [Leveled u I] (q : PortId) : Within (Kept I) (Neutron.unbindPort env q) := by
  refine Within.bind ?_ fun there => ?_
  · exact ((leveled_plain _).bind fun _ => within_pure _).tryExcept fun _ => within_pure _
  · exact (leveled_call fun s => level_setDevice q none s).swallow.onlyIf

/-- Ports that are all to be kept are unbound. -/
theorem leveled_unbindPorts [Leveled u I] (ports : List PortId) :
    Within (Kept I) (Neutron.deleteOrUnbindPorts env ports []) := by
  refine within_forEach fun q _ => Within.tryExcept ?_ fun _ => within_ite (within_pure _) (within_raise _)
  rw [if_neg List.not_mem_nil]
  exact leveled_unbindPort q

theorem leveled_disconnect [Leveled u I] (h : ∀ a ∈ addrs, a.preserveOnDelete = true) :
    Within (Kept I) (Docker.disconnectContainerFromNetwork env u addrs) := by
  unfold Docker.disconnectContainerFromNetwork
  rw [ownPorts_of_preserved h]
  exact (within_read _).bind fun _ => ((leveled_plain _).onlyIf).tryFinally (leveled_unbindPorts _)

/-- Unbinding a port raises nothing. -/
theorem unless_unbindPort [Leveled u I] (q : PortId) :
    Unless (Spoiled bad calls) I (fun _ => I) E (Neutron.unbindPort env q) := by
  refine Unless.bind (J := fun _ => I) ?_ fun there => ?_
  · refine Unless.tryExcept (F := fun _ => I) ?_ fun e => unless_pure (J := fun _ => I) _
    refine Unless.bind (J := fun _ => I) ?_ fun _ => unless_pure (J := fun _ => I) true
    exact unless_call (fun _ => rfl) (fun _ hs _ => leveled_turn _ hs) fun _ _ hs _ => .inr (leveled_turn _ hs)
  · refine unless_onlyIf (fun _ => Unless.swallow ?_) fun _ _ hs => hs
    exact unless_call (fun _ => rfl) (fun s hs _ => Leveled.congr (leveled_turn _ hs) (level_setDevice q none _))
      fun _ _ hs _ => .inr (leveled_turn _ hs)

theorem unless_unbindPorts [Leveled u I] (ports : List PortId) :
    Unless (Spoiled bad calls) I (fun _ => I) E (Neutron.deleteOrUnbindPorts env ports []) := by
  refine unless_forEach (P := fun _ => I) ports fun q _ _ => ?_
  refine Unless.tryExcept (F := fun _ _ => False) ?_ fun _ =>
    unless_never (within_ite (within_pure _) (within_raise _))
  rw [if_neg List.not_mem_nil]
  exact unless_unbindPort q

section Disconnect

variable [Leveled u I] (hdisconnect : ∀ s e, I s → env.answer s.tick (.docker .disconnect u) = .raise e →
  Spoiled bad calls (s.turn env (.docker .disconnect u)))

include hdisconnect

theorem unless_disconnected (id : Option RuntimeId) : Unless (Spoiled bad calls) I (fun _ => I)
    (fun _ _ => False) (onlyIf (id ≠ none) (call env (.docker .disconnect u))) :=
  unless_onlyIf (fun _ => unless_call (fun _ => rfl) (fun _ hs _ => leveled_turn _ hs)
    fun s e hs hanswer => .inl (hdisconnect s e hs hanswer)) fun _ _ hs => hs

/-- A network whose port is to be kept. -/
theorem unless_disconnectKept (h : ∀ a ∈ addrs, a.preserveOnDelete = true) :
    Unless (Spoiled bad calls) I (fun _ => I) E (Docker.disconnectContainerFromNetwork env u addrs) := by
  unfold Docker.disconnectContainerFromNetwork
  rw [ownPorts_of_preserved h]
  refine Unless.bind (J := fun _ => I) (unless_read _ fun _ hs => hs) fun id => ?_
  refine (unless_disconnected hdisconnect id).tryFinally ?_ (fun _ => unless_unbindPorts _) fun _ => ?_
  · exact within_deleteOrUnbindPorts _ _
  · exact unless_never (within_deleteOrUnbindPorts _ _)

/-- A network whose port goes with it. -/
theorem unless_disconnectOwned {J : World → Prop} (hips : p.fixedIps ≠ [])
    (hok : ∀ s, I s → env.answer s.tick (.deletePort p.id) = .ok →
      J (Neutron.dropPort p.id (s.turn env (.deletePort p.id))))
    (hdelete : ∀ s e, I s → env.answer s.tick (.deletePort p.id) = .raise e →
      Spoiled bad calls (s.turn env (.deletePort p.id)) ∨
        (e.cls ≠ .portNotFound ∧ E e (s.turn env (.deletePort p.id)))) :
    Unless (Spoiled bad calls) I (fun _ => J) E
      (Docker.disconnectContainerFromNetwork env u (Neutron.addressesOf false p)) := by
  unfold Docker.disconnectContainerFromNetwork
  rw [Neutron.allPorts_addressesOf false hips, Neutron.ownPorts_addressesOf false hips,
    if_neg Bool.false_ne_true]
  refine Unless.bind (J := fun _ => I) (unless_read _ fun _ hs => hs) fun id => ?_
  refine (unless_disconnected hdisconnect id).tryFinally (within_deleteOrUnbindPorts _ _) (fun _ => ?_)
    fun _ => unless_never (within_deleteOrUnbindPorts _ _)
  refine Unless.bind (J := fun _ => J) ?_ fun _ => unless_ret (J := fun _ => J) ()
  refine Unless.tryExcept (F := fun e s => e.cls ≠ .portNotFound ∧ E e s) ?_ fun e =>
    unless_ite (fun hmissing => ?_) fun _ => ?_
  · rw [if_pos (List.mem_singleton_self p.id)]
    exact unless_call (fun _ => rfl) hok hdelete
  · exact (unless_never (within_pure ())).pre fun s hs => hs.1 hmissing
  · exact (unless_raise e).pre fun s hs => hs.2

end Disconnect

/-! ## Detach -/

theorem Settled.hosted (h : Settled u k calls Q strict clean s) (hlists : Lists u addresses s)
    (hne : addresses ≠ []) : Hosted u s := by
  obtain ⟨r, hr, -, hbare⟩ := h.row
  have hnot (hnone : r.host = none ∨ (s.mem u).val.host = none) : False :=
    hne (hlists.symm.trans (hbare hnone).2.1)
  exact ⟨⟨r, hr, fun hnone => hnot (.inl hnone)⟩, fun hnone => hnot (.inr hnone)⟩

/-- The state of a detach, with the port of its network. -/
abbrev Detaching (u : Uuid) (k : Nat) (calls : List (Call × Answer)) (p : Port)
    (addresses : List (NetId × List Addr)) (s : World) : Prop :=
  Settled u k calls (fun wires => p ∈ wires) true false s ∧ Lists u addresses s

/-- What is left to a detach once the network is off. -/
def forget (env : Env) (u : Uuid) (net : NetId) (addresses : List (NetId × List Addr)) :
    Prog World Exn Unit := do
  onlyIf (addresses.any (·.1 = net) = false) (raise { cls := .other, text := toString net })
  assign u (Obj.setAddresses (addresses.filter (·.1 ≠ net)))
  save env u

theorem spoiled_forget (net : NetId) (addresses : List (NetId × List Addr)) :
    Within (Kept (Spoiled bad calls)) (forget env u net addresses) :=
  (within_raise _).onlyIf.bind fun _ => (within_modify fun _ hs => hs).bind fun _ => within_save u

theorem unless_onlyIfMissing {net : NetId} {e : Exn} (hmem : (net, addrs) ∈ addresses) :
    Unless (Spoiled bad calls) I (fun _ => I) E
      (onlyIf (addresses.any (·.1 = net) = false) (raise e)) := by
  refine unless_onlyIf (fun hno => ?_) fun _ _ hs => hs
  have hany : addresses.any (·.1 = net) = true :=
    List.any_eq_true.mpr ⟨_, hmem, decide_eq_true rfl⟩
  cases hany.symm.trans hno

/-- A port that was brought stays where it is. -/
theorem unless_detachKept (hmade : p.zunMade = false)
    (hmem : (p.network, Neutron.addressesOf true p) ∈ addresses)
    (hE : ∀ {Q : List Port → Prop} e s, Settled u k calls Q true false s → E e s) :
    Unless (Spoiled bad calls) (Detaching u k calls p addresses)
      (fun _ => Settled u k calls (fun _ => True) true false) E (do
        Docker.disconnectContainerFromNetwork env u (Neutron.addressesOf true p)
        forget env u p.network addresses) := by
  refine Unless.bind (unless_keeps (I := Detaching u k calls p addresses) ?_
    (leveled_disconnect (preserved_addressesOf p)) fun e s hs => hE e s hs.1) fun _ => ?_
  · exact Docker.within_disconnectContainerFromNetwork u _
  refine (unless_onlyIfMissing hmem).bind fun _ => ?_
  refine Unless.bind (J := fun _ => Settled u k calls (fun _ => True) true false) ?_ fun _ => ?_
  · refine unless_assign fun s hs => ?_
    obtain ⟨h, hlists⟩ := hs
    have hplaced : Placed s.wires addresses [] := hlists ▸ h.obj (.inl rfl)
    have hleft := hplaced.without h.wired h.ports (by rw [hmade]; exact hmem) false
      fun hyes => nomatch hmade.symm.trans hyes
    exact (h.with hleft).assign (h.hosted hlists (List.ne_nil_of_mem hmem))
  · exact unless_keeps (within_save u) (within_saveInward u) fun e s hs => hE e s hs

/-- A port that was made is deleted.  The record is behind until the end. -/
theorem unless_detachOwned {net : NetId} (hmade : p.zunMade = true) (hips : p.fixedIps ≠ [])
    (hnet : p.network = net) (hmem : (net, Neutron.addressesOf false p) ∈ addresses)
    (hbad : ∀ x before, x.2 ≠ .ok → unrecorded before = true → bad x before)
    (hdrop : ∀ x before, x.2 ≠ .ok → disconnects x.1 = true ∨ (dropsPort x.1 = true ∧
      raised .portNotFound x.2) → bad x before)
    (hE : ∀ {Q : List Port → Prop} e s, Settled u k calls Q true false s → E e s) :
    Unless (Spoiled bad calls) (Detaching u k calls p addresses)
      (fun _ => Settled u k calls (fun _ => True) true false) E (do
        Docker.disconnectContainerFromNetwork env u (Neutron.addressesOf false p)
        forget env u net addresses) := by
  subst hnet
  refine Unless.bind (J := fun _ s =>
    Building u k calls (addresses.filter (·.1 ≠ p.network)) [] none s ∧ Exposed calls s) ?_
    fun _ => (unless_onlyIfMissing hmem).bind fun _ => unless_assignAndSave hbad
  refine unless_disconnectOwned (fun s e hs hanswer => ?_) hips (fun s hs hanswer => ?_)
    fun s e hs hanswer => ?_
  · obtain ⟨before, hlog⟩ := hs.1.since
    exact spoiled_turn hlog.symm hanswer (hdrop _ _ nofun (.inl rfl))
  · obtain ⟨h, hlists⟩ := hs
    have hplaced : Placed s.wires addresses [] := hlists ▸ h.obj (.inl rfl)
    have hhosted := h.hosted hlists (List.ne_nil_of_mem hmem)
    refine ⟨⟨?_, hhosted.row, hhosted.obj, ?_, fun _ hin => absurd hin List.not_mem_nil, nofun, h.few,
      h.since.trans (List.suffix_cons ..)⟩, exposed_of_moves rfl hanswer h.since⟩
    · rw [wires_dropPort]
      exact h.wired.drop _
    · rw [wires_dropPort]
      exact hplaced.without h.wired h.ports (by rw [hmade]; exact hmem) true fun _ => rfl
  · by_cases hcls : e.cls = .portNotFound
    · obtain ⟨before, hlog⟩ := hs.1.since
      exact .inl (spoiled_turn hlog.symm hanswer (hdrop _ _ nofun (.inr ⟨rfl, e, rfl, hcls⟩)))
    · exact .inr ⟨hcls, hE e _ (leveled_turn _ hs.1)⟩

/-- The driver's detach. -/
theorem unless_networkDetach {net : NetId} (r : Record) :
    Unless (Spoiled (harmful r (.detach net)) calls)
      (fun s => Settled u k calls (fun _ => True) true false s ∧ Lists u r.addresses s)
      (fun _ => Settled u k calls (fun _ => True) true false)
      (fun _ => Settled u k calls (fun _ => True) false false) (Docker.networkDetach env u net) := by
  have hE {Q : List Port → Prop} (s : World) (hs : Settled u k calls Q true false s) :
      Settled u k calls (fun _ => True) false false s := hs.weaken fun _ _ => trivial
  refine Unless.bind (unless_keeps (I := fun s => Settled u k calls (fun _ => True) true false s ∧
    Lists u r.addresses s) ?_ ?_ fun _ s hs => hE s hs.1) fun _ => ?_
  · exact (within_read _).bind fun _ => (within_raise _).onlyIf
  · exact (within_read _).bind fun _ => (within_raise _).onlyIf
  refine unless_known (fun s hs => hs.2) (fun listed => ?_) ?_
  · exact (Docker.within_disconnectContainerFromNetwork u _).bind fun _ => spoiled_forget net listed
  show Unless _ _ _ _ (Docker.disconnectContainerFromNetwork env u _ >>= fun _ =>
    forget env u net r.addresses)
  cases hlookup : r.addresses.lookup net with
  | none =>
      refine Unless.bind (unless_keeps (I := fun s => Settled u k calls (fun _ => True) true false s ∧
        Lists u r.addresses s) (Docker.within_disconnectContainerFromNetwork u _)
        (leveled_disconnect fun a ha => absurd ha List.not_mem_nil) fun _ s hs => hE s hs.1) fun _ => ?_
      refine Unless.bind (J := fun _ _ => False) ?_ fun _ =>
        unless_never ((within_modify fun _ hs => hs).bind fun _ => within_save u)
      have hnone : r.addresses.any (·.1 = net) = false := by
        rw [List.lookup_eq_none_iff] at hlookup
        refine Bool.eq_false_iff.mpr fun hany => ?_
        obtain ⟨entry, hentry, hnet⟩ := List.any_eq_true.mp hany
        have hne := hlookup entry hentry
        rw [of_decide_eq_true hnet] at hne
        exact absurd hne (by simp)
      exact unless_onlyIf (fun _ => (unless_raise _).pre fun s hs => hE s hs.1) fun hno => absurd hnone hno
  | some addrs =>
      obtain ⟨before, after, heq, -⟩ := List.lookup_eq_some_iff.mp hlookup
      have hmem : (net, addrs) ∈ r.addresses := by
        rw [heq]
        exact List.mem_append_right _ List.mem_cons_self
      refine unless_of_forall ?_ fun s₀ hs₀ => ?_
      · exact (Docker.within_disconnectContainerFromNetwork u _).bind fun _ => spoiled_forget net _
      obtain ⟨h₀, hlists₀⟩ := hs₀
      have hplaced : Placed s₀.wires r.addresses [] := hlists₀ ▸ h₀.obj (.inl rfl)
      obtain ⟨p, hp, hnet, haddrs⟩ := hplaced.entries _ hmem
      have hpre (s : World) (hs : s = s₀) : Detaching u k calls p r.addresses s := by
        rw [hs]
        exact ⟨h₀.with hp, hlists₀⟩
      rw [show addrs = Neutron.addressesOf (!p.zunMade) p from haddrs] at hmem ⊢
      cases hmade : p.zunMade with
      | false =>
          rw [hmade] at hmem
          subst hnet
          exact (unless_detachKept hmade hmem fun _ s hs => hE s hs).pre hpre
      | true =>
          have hips := h₀.wired.addressed p hp hmade
          rw [hmade] at hmem
          refine (unless_detachOwned hmade hips hnet hmem (fun x before hx hun => ⟨hx, .inl hun⟩)
            (fun x before hx hcase => ⟨hx, .inr ⟨hcase, _, hmem, rfl, owned_addressesOf hips⟩⟩)
            fun _ s hs => hE s hs).pre hpre

/-- `_do_network_detach`. -/
theorem unless_doNetworkDetach {net : NetId} (r : Record) :
    Unless (Spoiled (harmful r (.detach net)) calls)
      (fun s => Settled u k calls (fun _ => True) true false s ∧ Lists u r.addresses s)
      (fun _ => Rests u) (fun _ => Rests u) (doNetworkDetach env u net) := by
  refine (unless_updateTaskState (fun s hs _ => hs) ?_ (unless_networkDetach (k := k) r)
    (fun _ => ?_) fun _ => ?_).conseq (fun _ hs => hs) (fun _ _ hs => hs.rests) fun _ _ hs => hs.rests
  · exact (unless_mark _ fun _ s hs => hs.1.weaken fun _ _ => trivial).pre fun _ hs => hs.1
  · exact unless_mark none fun _ s hs => hs.weaken fun _ _ => trivial
  · exact unless_mark none fun _ _ hs => hs

end DockerPorts

end Zun
