import Zun.Container.Cri.Gentle

/-!
# What a create that fails leaves behind

`create_capsule` and `create` make a port and a sandbox before they make any container.  When
they fail the record loses its host, and whatever is left on the node or in Neutron then has no
one who knows of it.  `create_capsule` undoes what it made, as far as the record names it.
`create` undoes nothing.

The record names a port by its addresses.  A port without a fixed address has none, so
the undo does not find it.  `Tidy` is what should hold after a create that failed, and the main
result is exactly when it does.
-/

namespace Zun

open Effect Prog World

namespace Cri

variable {env : Env} {u : Uuid} {s : World}

/-! ## Calls since a point -/

/-- The call was made since `s` and was answered so. -/
def Made (s : World) (c : Call) (a : Answer) (s' : World) : Prop :=
  ∃ new, s'.log = new ++ s.log ∧ (c, a) ∈ new

/-- The call was made since `s`. -/
def Tried (s : World) (c : Call) (s' : World) : Prop := ∃ a, Made s c a s'

/-- The calls that take a port away. -/
def onPort : Call → Bool
  | .deletePort _ | .unbindPort _ | .showPort _ => true
  | _ => false

/-- No call that takes a port away was made since `s`. -/
def PortsAlone (s s' : World) : Prop := ∃ new, s'.log = new ++ s.log ∧ ∀ x ∈ new, onPort x.1 = false

theorem onPort_of_releases {c : Call} (h : c.releases = false) : onPort c = false := by
  cases c <;> first | rfl | cases h

theorem Made.later {c : Call} {a : Answer} {s₁ s₂ : World} (h : Made s c a s₁)
    (hlog : s₁.log <:+ s₂.log) : Made s c a s₂ := by
  obtain ⟨new, hnew, hmem⟩ := h
  obtain ⟨more, hmore⟩ := hlog
  exact ⟨more ++ new, by rw [← hmore, hnew, List.append_assoc], List.mem_append_right _ hmem⟩

theorem Made.since {c : Call} {a : Answer} {s₁ s₂ : World} (h : Made s₁ c a s₂)
    (hlog : s.log <:+ s₁.log) : Made s c a s₂ := by
  obtain ⟨new, hnew, hmem⟩ := h
  obtain ⟨before, hbefore⟩ := hlog
  exact ⟨new ++ before, by rw [hnew, ← hbefore, List.append_assoc], List.mem_append_left _ hmem⟩

theorem made_turn (env : Env) (c : Call) (s : World) :
    Made s c (env.answer s.tick c) (s.turn env c) :=
  ⟨[_], rfl, List.mem_singleton_self _⟩

theorem PortsAlone.trans {s₁ s₂ : World} (h : PortsAlone s s₁) (h' : PortsAlone s₁ s₂) :
    PortsAlone s s₂ := by
  obtain ⟨new, hnew, hall⟩ := h
  obtain ⟨new', hnew', hall'⟩ := h'
  refine ⟨new' ++ new, by rw [hnew', hnew, List.append_assoc], fun x hx => ?_⟩
  obtain hx | hx := List.mem_append.mp hx
  · exact hall' x hx
  · exact hall x hx

theorem PortsAlone.refl (s : World) : PortsAlone s s :=
  ⟨[], rfl, fun _ hx => absurd hx List.not_mem_nil⟩

theorem PortsAlone.turn {s' : World} {c : Call} (h : PortsAlone s s') (hc : onPort c = false) :
    PortsAlone s (s'.turn env c) := by
  refine h.trans ⟨[(c, env.answer s'.tick c)], rfl, fun x hx => ?_⟩
  rw [List.mem_singleton.mp hx]
  exact hc

theorem Still.portsAlone {s' : World} (h : Still s s') : PortsAlone s s' := by
  obtain ⟨new, hnew, hall⟩ := h.calls
  exact ⟨new, hnew, fun x hx => onPort_of_releases (hall x hx)⟩

theorem PortsAlone.not_tried {s' : World} {c : Call} (h : PortsAlone s s')
    (hc : onPort c = true) : ¬ Tried s c s' := by
  rintro ⟨a, new, hnew, hmem⟩
  obtain ⟨new', hnew', hall⟩ := h
  rw [hnew] at hnew'
  rw [List.append_cancel_right hnew'] at hmem
  have := hall _ hmem
  rw [hc] at this
  cases this

theorem PortsAlone.log {s' : World} (h : PortsAlone s s') : s.log <:+ s'.log := by
  obtain ⟨new, hnew, -⟩ := h
  exact ⟨new, hnew.symm⟩

/-! ## The port a create gets -/

/-- The port that Neutron gives for a request, if it gives one, when it is asked in call
`n`. -/
def portFor (env : Env) (u : Uuid) (net : RequestedNetwork) (n : Nat) (s : World) : Option Port :=
  match net.port with
  | some p => if env.answer n (.updatePort p) = .ok then s.ports.find? (·.id = p) else none
  | none =>
      if env.answer n (.createPort u net.network) = .ok then
        some { id := s.nextId, network := net.network, fixedIps := env.fixedIps (n + 1)
               zunMade := true, device := some u }
      else none

/-- The port that `_write_cni_metadata` gets, with the request it is for. -/
def portGiven (env : Env) (u : Uuid) (nets : List RequestedNetwork) (s : World) :
    Option (RequestedNetwork × Port) :=
  match nets with
  | [] => none
  | net :: _ =>
      if env.answer s.tick (.securityGroups u) = .ok then
        (portFor env u net (s.tick + 1) s).map (net, ·)
      else none

/-- Neutron has given the port `p` for a request since `s`, and nothing has taken it away. -/
structure Wired (u : Uuid) (net : RequestedNetwork) (p : Port) (s s' : World) : Prop where
  there : ∃ q ∈ s'.ports, q.id = p.id ∧ (net.port.isSome → q.device = some u)
  known : ∀ q ∈ s'.ports, q.id = p.id ∨ ∃ q₀ ∈ s.ports, q₀.id = q.id
  kept : ∀ q ∈ s.ports, ∃ q' ∈ s'.ports, q'.id = q.id
  made : net.port = none → p.id = s.nextId
  tenant : ∀ id, net.port = some id → p.id = id ∧ ∃ q ∈ s.ports, q.id = id
  alone : PortsAlone s s'

theorem Wired.still {net : RequestedNetwork} {p : Port} {s₁ s₂ : World}
    (h : Wired u net p s s₁) (hports : s₂.ports = s₁.ports) (halone : PortsAlone s₁ s₂) :
    Wired u net p s s₂ where
  there := by
    rw [hports]
    exact h.there
  known := by
    rw [hports]
    exact h.known
  kept := by
    rw [hports]
    exact h.kept
  made := h.made
  tenant := h.tenant
  alone := h.alone.trans halone

theorem Wired.since {net : RequestedNetwork} {p : Port} {s₀ s' : World}
    (h : Wired u net p s s') (hstill : Still s₀ s) (hid : s.nextId = s₀.nextId) :
    Wired u net p s₀ s' where
  there := h.there
  known := by
    rw [← hstill.ports]
    exact h.known
  kept := by
    rw [← hstill.ports]
    exact h.kept
  made := by
    rw [← hid]
    exact h.made
  tenant := by
    rw [← hstill.ports]
    exact h.tenant
  alone := (Still.portsAlone hstill).trans h.alone

theorem Wired.made_port {net : RequestedNetwork} {ips : List String} (hport : net.port = none) :
    Wired u net ⟨s.nextId, net.network, ips, true, some u⟩ s
      (Neutron.addPort ⟨s.nextId, net.network, ips, true, some u⟩ s) where
  there := ⟨_, List.mem_cons_self .., rfl, fun _ => rfl⟩
  known q hq := by
    obtain rfl | hq := List.mem_cons.mp hq
    · exact .inl rfl
    · exact .inr ⟨q, hq, rfl⟩
  kept q hq := ⟨q, List.mem_cons_of_mem _ hq, rfl⟩
  made _ := rfl
  tenant id hid := by
    rw [hport] at hid
    cases hid
  alone := ⟨[], rfl, fun _ hx => absurd hx List.not_mem_nil⟩

theorem Wired.tenant_port {net : RequestedNetwork} {id : PortId} {p : Port}
    (hport : net.port = some id) (hp : p ∈ s.ports) (hid : p.id = id) :
    Wired u net p s (Neutron.setDevice id (some u) s) where
  there := by
    obtain ⟨q, hq, hqid, hdevice⟩ := Neutron.setDevice_mem id (some u) hp
    exact ⟨q, hq, hqid, fun _ => hdevice hid⟩
  known _ hq := .inr (Neutron.mem_setDevice hq)
  kept q hq := by
    obtain ⟨q', hq', hid', -⟩ := Neutron.setDevice_mem id (some u) hq
    exact ⟨q', hq', hid'⟩
  made hnone := by
    rw [hport] at hnone
    cases hnone
  tenant id' hid' := by
    rw [hport] at hid'
    cases hid'
    exact ⟨hid, p, hp, hid⟩
  alone := ⟨[], rfl, fun _ hx => absurd hx List.not_mem_nil⟩

/-- What `create_or_update_port` gives, and what it does. -/
theorem wp_createOrUpdatePort {net : RequestedNetwork} :
    wp (Neutron.createOrUpdatePort env u net) (fun r s' =>
      match portFor env u net s.tick s with
      | none => (∀ a, r ≠ .ok a) ∧ Still s s'
      | some p => r = .ok (Neutron.addressesOf net.preserveOnDelete p) ∧ Wired u net p s s' ∧
          s'.sandboxes = s.sandboxes ∧ s'.mem = s.mem) s := by
  unfold Neutron.createOrUpdatePort portFor
  cases hport : net.port with
  | some id =>
      rw [wp_bind]
      have hturn := still_turn env (c := .updatePort id) rfl s
      refine wp_call (fun hok => ?_) (fun e he => ?_) (fun hhalt => ?_)
      · rw [seqPost_ok, wp_bind, wp_read, seqPost_ok, Neutron.find_setDevice]
        simp only [hok, if_true]
        rw [turn_ports]
        cases hfind : s.ports.find? (·.id = id) with
        | none =>
            have hsame : Neutron.setDevice id (some u) (s.turn env (.updatePort id))
                = s.turn env (.updatePort id) := Neutron.setDevice_of_none hfind
            refine ⟨nofun, ?_⟩
            change Still s (Neutron.setDevice id (some u) (s.turn env (.updatePort id)))
            rw [hsame]
            exact hturn
        | some p =>
            refine ⟨congrArg Result.ok (Neutron.addressesOf_ite p), ?_, rfl, rfl⟩
            have hw := Wired.tenant_port (u := u) (s := s.turn env (.updatePort id)) hport
              (List.mem_of_find?_eq_some hfind) (by simpa using List.find?_some hfind)
            exact hw.since hturn rfl
      · simp only [he]
        exact ⟨nofun, hturn⟩
      · simp only [hhalt]
        exact ⟨nofun, hturn⟩
  | none =>
      rw [wp_bind]
      have hturn := still_turn env (c := .createPort u net.network) rfl s
      refine wp_call (fun hok => ?_) (fun e he => ?_) (fun hhalt => ?_)
      · rw [seqPost_ok, wp_bind, wp_read, seqPost_ok]
        simp only [hok, if_true]
        refine ⟨rfl, ?_, rfl, rfl⟩
        exact (Wired.made_port (s := s.turn env (.createPort u net.network)) hport).since hturn rfl
      · simp only [he]
        exact ⟨nofun, hturn⟩
      · simp only [hhalt]
        exact ⟨nofun, hturn⟩

/-! ## What the record names -/

/-- The record of `u` names what it named, and the ports and sandboxes are as they were. -/
structure Fixed (u : Uuid) (s s' : World) : Prop where
  containerId : (s'.mem u).val.containerId = (s.mem u).val.containerId
  addresses : (s'.mem u).val.addresses = (s.mem u).val.addresses
  ports : s'.ports = s.ports
  sandboxes : s'.sandboxes = s.sandboxes
  alone : PortsAlone s s'

instance (u : Uuid) : Steady (Fixed u) where
  refl s := ⟨rfl, rfl, rfl, rfl, PortsAlone.refl s⟩
  trans _ _ _ h h' :=
    { containerId := h'.containerId.trans h.containerId
      addresses := h'.addresses.trans h.addresses
      ports := h'.ports.trans h.ports
      sandboxes := h'.sandboxes.trans h.sandboxes
      alone := h.alone.trans h'.alone }
  still h :=
    { containerId := by rw [h.mem]
      addresses := by rw [h.mem]
      ports := h.ports
      sandboxes := h.sandboxes
      alone := Still.portsAlone h }

theorem fixed_save {v : Uuid} (row : Record) : Fixed u s (s.saved v row) where
  containerId := by rw [saved_val]
  addresses := by rw [saved_val]
  ports := rfl
  sandboxes := rfl
  alone := ⟨[], rfl, fun _ hx => absurd hx List.not_mem_nil⟩

theorem fixed_assign {m : Uuid} (h : u ≠ m) (f : Obj → Obj) : Fixed u s (s.setMem m f) where
  containerId := by rw [setMem_mem_of_ne h]
  addresses := by rw [setMem_mem_of_ne h]
  ports := rfl
  sandboxes := rfl
  alone := ⟨[], rfl, fun _ hx => absurd hx List.not_mem_nil⟩

theorem fixed_member {m : Uuid} (h : u ≠ m) : Member (Fixed u) m where
  assign _ := fixed_assign h _
  save _ := fixed_save _

theorem fixed_talk (u : Uuid) : Talk (Fixed u) u where
  reason v :=
    { containerId := by
        rw [setMem_mem_self]
        rfl
      addresses := by
        rw [setMem_mem_self]
        rfl
      ports := rfl
      sandboxes := rfl
      alone := ⟨[], rfl, fun _ hx => absurd hx List.not_mem_nil⟩ }
  save _ := fixed_save _

/-- Every sandbox made since `s` is the one that the record of `u` names. -/
def Named (u : Uuid) (s s' : World) : Prop :=
  ∀ b ∈ s'.sandboxes, b ∈ s.sandboxes ∨ (s'.mem u).val.containerId = some b.id

/-- What a create has made since `s`: a port that is on the record by its addresses, and
perhaps a sandbox that is on the record by its id. -/
structure Built (u : Uuid) (net : RequestedNetwork) (p : Port) (s s' : World) : Prop where
  wired : Wired u net p s s'
  named : Named u s s'
  addresses : (s'.mem u).val.addresses
    = [(net.network, Neutron.addressesOf net.preserveOnDelete p)]

theorem Built.fixed {net : RequestedNetwork} {p : Port} {s₁ s₂ : World}
    (h : Built u net p s s₁) (hfix : Fixed u s₁ s₂) : Built u net p s s₂ where
  wired := h.wired.still hfix.ports hfix.alone
  named := by
    intro b hb
    rw [hfix.sandboxes] at hb
    rw [hfix.containerId]
    exact h.named b hb
  addresses := hfix.addresses.trans h.addresses

/-- What a create has made when it ends in a result, by the port it was given. -/
def Outcome {α : Type} (env : Env) (u : Uuid) (nets : List RequestedNetwork) (s : World)
    (r : Result Exn α) (s' : World) : Prop :=
  match portGiven env u nets s with
  | none => (∀ a, r ≠ .ok a) ∧ Still s s'
  | some (net, p) => Built u net p s s'

theorem Outcome.andThen {α β : Type} {nets : List RequestedNetwork} {r : Result Exn α}
    {s' : World} {f : α → Prog World Exn β} (h : Outcome env u nets s r s')
    (hf : ∀ a net p, Built u net p s s' → wp (f a) (fun _ s'' => Built u net p s s'') s') :
    seqPost f (Outcome env u nets s) r s' := by
  unfold Outcome at h ⊢
  split at h
  · cases r with
    | ok a => exact absurd rfl (h.1 a)
    | raise e => exact ⟨nofun, h.2⟩
    | halt => exact ⟨nofun, h.2⟩
  · cases r with
    | ok a => exact hf a _ _ h
    | raise e => exact h
    | halt => exact h

theorem Built.within {α : Type} {net : RequestedNetwork} {p : Port} {s₁ : World}
    {q : Prog World Exn α} (h : Built u net p s s₁) (hq : Within (Fixed u) q) :
    wp q (fun _ s₂ => Built u net p s s₂) s₁ := h.fixed (hq s₁)

/-- A create that was given no port has made nothing. -/
theorem Outcome.nothing {α : Type} {nets : List RequestedNetwork} {r : Result Exn α} {s' : World}
    (hnone : portGiven env u nets s = none) (hr : ∀ a, r ≠ .ok a) (hs : Still s s') :
    Outcome env u nets s r s' := by
  unfold Outcome
  rw [hnone]
  exact ⟨hr, hs⟩

theorem Outcome.built {α : Type} {nets : List RequestedNetwork} {r : Result Exn α} {s' : World}
    {net : RequestedNetwork} {p : Port} (hsome : portGiven env u nets s = some (net, p))
    (h : Built u net p s s') : Outcome env u nets s r s' := by
  unfold Outcome
  rw [hsome]
  exact h

/-- The port is on the record as soon as it is there. -/
theorem Wired.built {net : RequestedNetwork} {p : Port} {s₁ : World} (h : Wired u net p s s₁)
    (hboxes : s₁.sandboxes = s.sandboxes) :
    Built u net p s (s₁.setMem u
      (Obj.setAddresses [(net.network, Neutron.addressesOf net.preserveOnDelete p)])) where
  wired := h.still rfl ⟨[], rfl, fun _ hx => absurd hx List.not_mem_nil⟩
  named b hb := .inl (hboxes ▸ hb)
  addresses := by
    rw [setMem_mem_self]
    rfl

theorem wp_writeCniMetadata (nets : List RequestedNetwork) :
    wp (writeCniMetadata env u nets) (Outcome env u nets s) s := by
  have hturn := still_turn env (c := .securityGroups u) rfl s
  unfold writeCniMetadata
  rw [wp_bind]
  cases nets with
  | nil =>
      have hnone (r : Result Exn Unit) (hr : ∀ a, r ≠ .ok a) :
          Outcome env u [] s r (s.turn env (.securityGroups u)) := Outcome.nothing rfl hr hturn
      exact wp_call (fun _ => hnone (.raise _) nofun) (fun _ _ => hnone (.raise _) nofun)
        (fun _ => hnone .halt nofun)
  | cons net nets =>
      refine wp_call (fun hok => ?_) (fun e he => ?_) (fun hhalt => ?_)
      · have hgiven : portGiven env u (net :: nets) s
            = (portFor env u net (s.tick + 1) s).map (net, ·) := if_pos hok
        rw [seqPost_ok, wp_bind]
        refine wp_mono wp_createOrUpdatePort fun r s₁ hr => ?_
        change match portFor env u net (s.tick + 1) s with | none => _ | some p => _ at hr
        cases hp : portFor env u net (s.tick + 1) s with
        | none =>
            rw [hp] at hr hgiven
            have hstill := trans_of Still hturn hr.2
            cases r with
            | ok a => exact absurd rfl (hr.1 a)
            | raise e => exact Outcome.nothing hgiven nofun hstill
            | halt => exact Outcome.nothing hgiven nofun hstill
        | some p =>
            rw [hp] at hr hgiven
            obtain ⟨rfl, hwired, hboxes, -⟩ := hr
            have hbuilt := (hwired.since hturn rfl).built hboxes
            rw [seqPost_ok, wp_bind, wp_assign, seqPost_ok]
            refine wp_mono (hbuilt.within ?_) fun _ _ => Outcome.built hgiven
            refine (within_plain _ rfl).bind fun _ => ?_
            refine (within_forEach fun _ _ => within_plain _ rfl).bind fun _ => ?_
            exact (within_plain _ rfl).bind fun _ => within_save_of fun _ _ _ => fixed_save _
      · have hgiven : portGiven env u (net :: nets) s = none := if_neg (by rw [he]; nofun)
        exact Outcome.nothing hgiven nofun hturn
      · have hgiven : portGiven env u (net :: nets) s = none := if_neg (by rw [hhalt]; nofun)
        exact Outcome.nothing hgiven nofun hturn

/-- The sandboxes are as they were. -/
def Boxes (s s' : World) : Prop := s'.sandboxes = s.sandboxes

instance : Steady Boxes where
  refl _ := rfl
  trans _ _ _ h h' := h'.trans h
  still h := h.sandboxes

theorem within_boxes (nets : List RequestedNetwork) :
    Within Boxes (writeCniMetadata env u nets) := by
  refine within_writeCniMetadata_of (Neutron.within_createOrUpdatePort_of (fun _ => ?_) fun _ => ?_)
    (fun _ _ => rfl) (within_save_of fun _ _ _ => rfl) nets
  · exact within_call (fun _ => rfl) fun _ => rfl
  · exact within_call (fun _ => rfl) fun _ => rfl

/-- A sandbox that was made is on the record as soon as it is there. -/
theorem wp_createPodSandbox (nets : List RequestedNetwork) :
    wp (createPodSandbox env u nets) (Outcome env u nets s) s := by
  unfold createPodSandbox
  rw [wp_bind]
  refine wp_mono (wp_and (wp_writeCniMetadata nets) ((within_boxes nets).wp s)) ?_
  rintro r s₁ ⟨hr, hboxes⟩
  refine hr.andThen fun _ net p hbuilt => ?_
  refine wp_bind_kept (I := fun s₂ => Built u net p s s₂ ∧ s₂.sandboxes = s.sandboxes)
    (fun s₂ h => ?_) ⟨hbuilt, hboxes⟩ ?_ (fun _ _ h => h.1) (fun _ h => h.1)
  · have hfix : Fixed u s₂ (call env (.applyPodCeiling u) id s₂).2 := within_plain _ rfl s₂
    exact ⟨h.1.fixed hfix, hfix.sandboxes.trans h.2⟩
  rintro - s₂ ⟨hs₂, hb₂⟩
  have hturn : Built u net p s (s₂.turn env (.runPodSandbox u)) := hs₂.fixed (steady_turn _ _ rfl)
  rw [wp_bind]
  refine wp_call (fun _ => ?_) (fun _ _ => hturn) (fun _ => hturn)
  rw [seqPost_ok, wp_bind, wp_read, seqPost_ok, wp_bind, wp_assign, seqPost_ok]
  refine Built.within ?_ (within_plain _ rfl)
  exact {
    wired := hs₂.wired.still rfl ((PortsAlone.refl s₂).turn rfl)
    named := by
      intro b hb
      rw [setMem_mem_self]
      obtain rfl | hb := List.mem_cons.mp hb
      · exact .inr rfl
      · exact .inl (hb₂ ▸ hb)
    addresses := by
      rw [setMem_mem_self]
      exact hs₂.addresses }

/-- The rest of a capsule's build does not touch what the capsule names. -/
theorem wp_buildCapsule (c : Capsule) (nets : List RequestedNetwork) :
    wp (buildCapsule env c nets) (Outcome env c.uuid nets s) s := by
  have hne : ∀ m ∈ c.initContainers ++ c.containers, c.uuid ≠ m := by
    rintro m hm rfl
    exact (List.nodup_cons.mp c.distinct).1 hm
  have hinit : ∀ m ∈ c.initContainers, c.uuid ≠ m := fun m hm => hne m (List.mem_append_left _ hm)
  have hsave (m : Uuid) : Within (Fixed c.uuid) (save env m) :=
    within_save_of fun _ _ _ => fixed_save _
  unfold buildCapsule
  rw [wp_bind]
  refine wp_mono (wp_createPodSandbox nets) fun r s₁ hr => hr.andThen fun _ net p hbuilt => ?_
  refine hbuilt.within ((hsave _).bind fun _ => Within.bind ?_ fun _ => ?_)
  · refine within_runInitMembers (fixed_talk _) (fun m hm => fixed_member (hinit m hm))
      fun m hm state => (within_read _).bind fun _ => Within.onlyIf (Within.bind ?_ fun _ => hsave m)
    exact fun _ => fixed_assign (hinit m hm) _
  · exact within_forEach fun m hm =>
      within_buildMember (fixed_member (hne m (List.mem_append_right _ hm))) _

/-! ## The undo -/

/-- `_delete_sandbox` goes on to remove the sandbox after this answer to its stop. -/
def stopGoesOn : Answer → Bool
  | .ok => true
  | .raise e => stopTolerated e
  | .halt => false

/-- The removal of a sandbox was attempted since `s`. -/
def RemovalTried (s : World) (pod : RuntimeId) (s' : World) : Prop :=
  ∃ a, Made s (.stopPodSandbox pod) a s' ∧
    (stopGoesOn a = true → Tried s (.removePodSandbox pod) s')

/-- `_unbind_port` goes on to unbind the port after this answer to its look at it. -/
def showGoesOn : Answer → Bool
  | .ok => true
  | .raise e => e.cls != .portNotFound
  | .halt => false

/-- The unbinding of a port was attempted since `s`. -/
def UnbindTried (s : World) (p : PortId) (s' : World) : Prop :=
  ∃ a, Made s (.showPort p) a s' ∧ (showGoesOn a = true → Tried s (.unbindPort p) s')

theorem Tried.widen {c : Call} {s₁ s₂ s' : World} (h : Tried s₁ c s₂) (hs : s.log <:+ s₁.log)
    (hs' : s₂.log <:+ s'.log) : Tried s c s' := by
  obtain ⟨a, ha⟩ := h
  exact ⟨a, (ha.since hs).later hs'⟩

theorem RemovalTried.widen {pod : RuntimeId} {s₁ s₂ s' : World} (h : RemovalTried s₁ pod s₂)
    (hs : s.log <:+ s₁.log) (hs' : s₂.log <:+ s'.log) : RemovalTried s pod s' := by
  obtain ⟨a, ha, hgo⟩ := h
  exact ⟨a, (ha.since hs).later hs', fun h => (hgo h).widen hs hs'⟩

theorem UnbindTried.since {p : PortId} {s₁ s' : World} (h : UnbindTried s₁ p s')
    (hs : s.log <:+ s₁.log) : UnbindTried s p s' := by
  obtain ⟨a, ha, hgo⟩ := h
  exact ⟨a, ha.since hs, fun h => (hgo h).widen hs (List.suffix_refl _)⟩

/-- A call whose exceptions are looked at afterwards was made, whatever comes of it. -/
theorem wp_tried {c : Call} {effect : World → World} {h : Exn → Prog World Exn Unit}
    (heffect : ∀ s, (effect s).log = s.log) (hh : ∀ e s, ((h e) s).2 = s) :
    wp (tryExcept (call env c effect) h) (fun _ s' => Made s c (env.answer s.tick c) s') s := by
  have hmade := made_turn env c s
  rw [wp_tryExcept]
  refine wp_call (fun _ => ?_) (fun e _ => ?_) (fun _ => hmade)
  · exact hmade.later ⟨[], (heffect _).symm⟩
  · change Made s c _ (h e (s.turn env c)).2
    rw [hh]
    exact hmade

theorem wp_deleteSandbox (pod : RuntimeId) :
    wp (deleteSandbox env pod) (fun r s' => r ≠ .halt → RemovalTried s pod s') s := by
  have hstop := made_turn env (.stopPodSandbox pod) s
  -- What is left once the stop is over, in the world it left.
  have hrest (s₁ : World) (a : Answer) (hs₁ : Made s (.stopPodSandbox pod) a s₁) :
      wp (tryExcept (removePodSandbox env pod) fun e =>
          if e.cls = .rpcError .notFound then pure () else raise e)
        (fun r s' => r ≠ .halt → RemovalTried s pod s') s₁ := by
    have hlog : s.log <:+ s₁.log := by
      obtain ⟨new, hnew, -⟩ := hs₁
      exact ⟨new, hnew.symm⟩
    refine wp_mono (wp_tried (fun _ => rfl) fun e s => by split <;> rfl) fun r s' hmade _ => ?_
    have hlater : s₁.log <:+ s'.log := by
      obtain ⟨new, hnew, -⟩ := hmade
      exact ⟨new, hnew.symm⟩
    exact ⟨_, hs₁.later hlater, fun _ => ⟨_, hmade.since hlog⟩⟩
  unfold deleteSandbox
  rw [wp_bind, wp_tryExcept]
  refine wp_call (fun hok => hrest _ _ hstop) (fun e he => ?_) (fun hhalt => nofun)
  rw [exceptPost_raise, wp_ite]
  split
  · exact hrest _ _ hstop
  · rename_i hnot
    refine fun _ => ⟨_, hstop, fun hgo => absurd ?_ hnot⟩
    rw [he] at hgo
    exact hgo

/-- The sandboxes are among those that were there, and the ports and the addresses of `u` are
as they were. -/
structure Shrunk (u : Uuid) (s s' : World) : Prop where
  addresses : (s'.mem u).val.addresses = (s.mem u).val.addresses
  ports : s'.ports = s.ports
  sandboxes : ∀ b ∈ s'.sandboxes, ∃ b₀ ∈ s.sandboxes, b₀.id = b.id
  log : s.log <:+ s'.log

instance (u : Uuid) : IsPreorder World (Shrunk u) where
  refl s := ⟨rfl, rfl, fun b hb => ⟨b, hb, rfl⟩, List.suffix_refl _⟩
  trans _ _ _ h h' :=
    { addresses := h'.addresses.trans h.addresses
      ports := h'.ports.trans h.ports
      sandboxes := by
        intro b hb
        obtain ⟨b₁, hb₁, hid₁⟩ := h'.sandboxes b hb
        obtain ⟨b₀, hb₀, hid₀⟩ := h.sandboxes b₁ hb₁
        exact ⟨b₀, hb₀, hid₀.trans hid₁⟩
      log := h.log.trans h'.log }

theorem shrunk_turn (c : Call) : Shrunk u s (s.turn env c) :=
  ⟨rfl, rfl, fun b hb => ⟨b, hb, rfl⟩, List.suffix_cons ..⟩

theorem shrunk_deleteSandbox (pod : RuntimeId) : Within (Shrunk u) (deleteSandbox env pod) := by
  refine Within.bind (Within.tolerate ?_) fun _ => Within.tolerate ?_
  · refine within_call (fun _ => shrunk_turn _) fun s => ⟨rfl, rfl, fun b hb => ?_, List.suffix_cons ..⟩
    obtain ⟨b₀, hb₀, rfl⟩ := List.mem_map.mp hb
    refine ⟨b₀, hb₀, ?_⟩
    split <;> rfl
  · refine within_call (fun _ => shrunk_turn _) fun s => ⟨rfl, rfl, fun b hb => ?_, List.suffix_cons ..⟩
    exact ⟨b, List.mem_of_mem_filter hb, rfl⟩

theorem shrunk_setContainerId (v : Option RuntimeId) :
    Within (Shrunk u) (assign u (Obj.setContainerId v)) := by
  refine within_modify fun s => ⟨?_, rfl, fun b hb => ⟨b, hb, rfl⟩, List.suffix_refl _⟩
  rw [setMem_mem_self]
  rfl

/-- The first half of the undo raises nothing, and tries to remove the sandbox that the record
names. -/
theorem wp_undoSandbox :
    wp (undoSandbox env u) (fun r s' => (∀ e, r ≠ .raise e) ∧ Shrunk u s s' ∧
      (r ≠ .halt → ∀ pod, (s.mem u).val.containerId = some pod → RemovalTried s pod s')) s := by
  unfold undoSandbox
  rw [wp_bind, wp_obj, seqPost_ok]
  cases hpod : (s.mem u).val.containerId with
  | none => exact ⟨nofun, refl_of (Shrunk u) s, nofun⟩
  | some pod =>
      have hdelete : wp (deleteSandbox env pod) _ s :=
        wp_and (wp_deleteSandbox pod) ((shrunk_deleteSandbox (u := u) pod).wp s)
      refine wp_swallow_of ?_
      rw [wp_bind]
      refine wp_mono hdelete ?_
      rintro r s₁ ⟨htried, hshrunk⟩
      cases r with
      | ok _ =>
          refine ⟨nofun, trans_of (Shrunk u) hshrunk (shrunk_setContainerId none s₁), ?_⟩
          rintro - pod' hpod'
          cases hpod'
          exact htried nofun
      | raise e =>
          refine ⟨nofun, hshrunk, ?_⟩
          rintro - pod' hpod'
          cases hpod'
          exact htried nofun
      | halt => exact ⟨nofun, hshrunk, fun h => absurd rfl h⟩

/-- What is done to the port `p`, with the others left alone. -/
structure Released (keep : Bool) (p : PortId) (s s' : World) : Prop where
  sandboxes : s'.sandboxes = s.sandboxes
  log : s.log <:+ s'.log
  known : ∀ q ∈ s'.ports, ∃ q₀ ∈ s.ports, q₀.id = q.id
  kept : ∀ q ∈ s.ports, (keep = false ∧ q.id = p) ∨ ∃ q' ∈ s'.ports, q'.id = q.id

theorem released_turn {keep : Bool} {p : PortId} (c : Call) : Released keep p s (s.turn env c) :=
  ⟨rfl, List.suffix_cons .., fun q hq => ⟨q, hq, rfl⟩, fun q hq => .inr ⟨q, hq, rfl⟩⟩

instance (keep : Bool) (p : PortId) : IsPreorder World (Released keep p) where
  refl s := ⟨rfl, List.suffix_refl _, fun q hq => ⟨q, hq, rfl⟩, fun q hq => .inr ⟨q, hq, rfl⟩⟩
  trans _ _ _ h h' :=
    { sandboxes := h'.sandboxes.trans h.sandboxes
      log := h.log.trans h'.log
      known := by
        intro q hq
        obtain ⟨q₁, hq₁, hid₁⟩ := h'.known q hq
        obtain ⟨q₀, hq₀, hid₀⟩ := h.known q₁ hq₁
        exact ⟨q₀, hq₀, hid₀.trans hid₁⟩
      kept := by
        intro q hq
        obtain hgone | ⟨q₁, hq₁, hid₁⟩ := h.kept q hq
        · exact .inl hgone
        obtain ⟨hkeep, hid⟩ | ⟨q₂, hq₂, hid₂⟩ := h'.kept q₁ hq₁
        · exact .inl ⟨hkeep, hid₁.symm.trans hid⟩
        · exact .inr ⟨q₂, hq₂, hid₂.trans hid₁⟩ }

/-- A port that is to go is deleted, or that was tried. -/
theorem wp_deletePort (p : PortId) :
    wp (Neutron.deleteOrUnbindPort env [p] p) (fun _ s' => Released false p s s' ∧
      Tried s (.deletePort p) s') s := by
  unfold Neutron.deleteOrUnbindPort
  rw [if_pos (List.mem_singleton_self p)]
  refine wp_and ?_ (wp_mono (wp_tried (fun _ => rfl) fun e s => by split <;> rfl)
    fun _ _ h => ⟨_, h⟩)
  have hdrop : Within (Released false p) (call env (.deletePort p) (Neutron.dropPort p)) := by
    refine within_call (fun _ => released_turn _) fun s => ?_
    refine ⟨rfl, List.suffix_cons .., fun q hq => ⟨q, List.mem_of_mem_filter hq, rfl⟩, fun q hq => ?_⟩
    by_cases hid : q.id = p
    · exact .inl ⟨rfl, hid⟩
    · exact .inr ⟨q, List.mem_filter.mpr ⟨hq, by simpa using hid⟩, rfl⟩
  exact (hdrop.tolerate).wp s

theorem wp_swallowed {c : Call} {effect : World → World} (heffect : ∀ s, (effect s).log = s.log) :
    wp (swallow (call env c effect)) (fun r s' => (∀ e, r ≠ .raise e) ∧ Tried s c s') s := by
  have hmade := made_turn env c s
  rw [wp_swallow]
  refine wp_call (fun _ => ?_) (fun e _ => ⟨nofun, _, hmade⟩) (fun _ => ⟨nofun, _, hmade⟩)
  exact ⟨nofun, _, hmade.later ⟨[], (heffect _).symm⟩⟩

/-- `_unbind_port` raises nothing, and tries to unbind the port. -/
theorem wp_unbindPort (p : PortId) :
    wp (Neutron.unbindPort env p) (fun r s' => (∀ e, r ≠ .raise e) ∧
      (r ≠ .halt → UnbindTried s p s')) s := by
  have hmade := made_turn env (.showPort p) s
  -- What is left once the port was looked at.
  have hrest (there : Bool) (hthere : there = showGoesOn (env.answer s.tick (.showPort p))) :
      wp (onlyIf (there = true) (swallow (call env (.unbindPort p) (Neutron.setDevice p none))))
        (fun r s' => (∀ e, r ≠ .raise e) ∧ (r ≠ .halt → UnbindTried s p s'))
        (s.turn env (.showPort p)) := by
    refine wp_onlyIf (fun _ => ?_) fun hno => ⟨nofun, fun _ => ⟨_, hmade, fun hgo => ?_⟩⟩
    · refine wp_mono (wp_swallowed fun _ => rfl) ?_
      rintro r s' ⟨hr, a, htried⟩
      have hlog : (s.turn env (.showPort p)).log <:+ s'.log := by
        obtain ⟨new, hnew, -⟩ := htried
        exact ⟨new, hnew.symm⟩
      exact ⟨hr, fun _ => ⟨_, hmade.later hlog, fun _ => ⟨a, htried.since (List.suffix_cons ..)⟩⟩⟩
    · rw [← hthere] at hgo
      exact absurd hgo hno
  unfold Neutron.unbindPort
  rw [wp_bind, wp_tryExcept, wp_bind]
  refine wp_call (fun hok => ?_) (fun e he => ?_) (fun _ => ⟨nofun, fun h => absurd rfl h⟩)
  · exact hrest true (by rw [hok]; rfl)
  · exact hrest _ (by rw [he]; rfl)

/-- A tenant's port is unbound, or that was tried. -/
theorem wp_keepPort (p : PortId) :
    wp (Neutron.deleteOrUnbindPort env [] p) (fun r s' => Released true p s s' ∧
      (r ≠ .halt → UnbindTried s p s')) s := by
  have hunbind : Within (Released true p) (call env (.unbindPort p) (Neutron.setDevice p none)) := by
    refine within_call (fun _ => released_turn _) fun s => ?_
    refine ⟨rfl, List.suffix_cons .., fun q hq => Neutron.mem_setDevice hq, fun q hq => ?_⟩
    obtain ⟨q', hq', hid', -⟩ := Neutron.setDevice_mem p none hq
    exact .inr ⟨q', hq', hid'⟩
  have hshow : Within (Released true p) (call env (.showPort p)) :=
    within_call (fun _ => released_turn _) fun _ => released_turn _
  unfold Neutron.deleteOrUnbindPort
  rw [if_neg List.not_mem_nil]
  refine wp_and ?_ ?_
  · refine Within.wp ?_ s
    refine Within.tolerate (Within.bind ?_ fun _ => hunbind.swallow.onlyIf)
    exact (hshow.bind fun _ => within_pure _).tryExcept fun e => within_pure _
  · rw [wp_tryExcept]
    refine wp_mono (wp_unbindPort p) ?_
    rintro r s' ⟨hr, htried⟩
    cases r with
    | ok a => exact htried
    | raise e => exact absurd rfl (hr e)
    | halt => exact htried

/-- How the port on the record was dealt with. -/
def PortTried (keep : Bool) (s : World) (p : PortId) (s' : World) : Prop :=
  match keep with
  | true => UnbindTried s p s'
  | false => Tried s (.deletePort p) s'

/-- The second half of the undo raises nothing, and deals with the port whose addresses are on
the record. -/
theorem wp_undoPorts {net : NetId} {keep : Bool} {p : Port} (hip : p.fixedIps ≠ [])
    (haddr : (s.mem u).val.addresses = [(net, Neutron.addressesOf keep p)]) :
    wp (undoPorts env u) (fun r s' => (∀ e, r ≠ .raise e) ∧ Released keep p.id s s' ∧
      (r ≠ .halt → PortTried keep s p.id s')) s := by
  have hports : wp (Neutron.deleteOrUnbindPort env (if keep then [] else [p.id]) p.id)
      (fun r s' => Released keep p.id s s' ∧ (r ≠ .halt → PortTried keep s p.id s')) s := by
    cases keep with
    | true => exact wp_keepPort p.id
    | false => exact wp_mono (wp_deletePort p.id) fun _ _ h => ⟨h.1, fun _ => h.2⟩
  have hall : addrsOf (s.mem u).val = Neutron.addressesOf keep p := by
    unfold addrsOf
    rw [haddr]
    exact List.append_nil _
  unfold undoPorts
  rw [wp_bind, wp_obj, seqPost_ok, haddr]
  unfold onlyIf
  rw [if_pos (List.cons_ne_nil _ _)]
  refine wp_swallow_of ?_
  unfold deleteNeutronPorts
  rw [wp_bind, wp_bind, wp_obj, seqPost_ok]
  have hne : (id (s.mem u).val).addresses ≠ [] := by
    rw [id, haddr]
    exact List.cons_ne_nil _ _
  unfold onlyIf
  rw [if_pos hne, id, hall, Neutron.allPorts_addressesOf keep hip, Neutron.ownPorts_addressesOf keep hip]
  unfold Neutron.deleteOrUnbindPorts forEach
  rw [wp_andThen]
  refine wp_mono hports ?_
  rintro r s' ⟨hrel, htried⟩
  have hok : ∀ e : Exn, (Result.ok () : Result Exn Unit) ≠ .raise e := by simp
  cases r with
  | ok a =>
      have hforget : Released keep p.id s' (s'.setMem u (Obj.setAddresses [])) :=
        ⟨rfl, List.suffix_refl _, fun q hq => ⟨q, hq, rfl⟩, fun q hq => .inr ⟨q, hq, rfl⟩⟩
      exact ⟨hok, trans_of (Released keep p.id) hrel hforget, fun _ => htried (by simp)⟩
  | raise e => exact ⟨hok, hrel, fun _ => htried (by simp)⟩
  | halt => exact ⟨by simp, hrel, htried⟩

/-- An undo that finds the port on the record. -/
theorem wp_undoCreate {net : RequestedNetwork} {p : Port} {s₁ : World} (hip : p.fixedIps ≠ [])
    (h : Built u net p s s₁) :
    wp (undoCreate env u) (fun r s' => (∀ e, r ≠ .raise e) ∧ (r ≠ .halt →
      ∃ s₂, Shrunk u s₁ s₂ ∧ Released net.preserveOnDelete p.id s₂ s' ∧
        (∀ pod, (s₁.mem u).val.containerId = some pod → RemovalTried s₁ pod s₂) ∧
        PortTried net.preserveOnDelete s₂ p.id s')) s₁ := by
  unfold undoCreate
  rw [wp_bind]
  refine wp_mono wp_undoSandbox ?_
  rintro r s₂ ⟨hr, hshrunk, hpod⟩
  cases r with
  | raise e => exact absurd rfl (hr e)
  | halt => exact ⟨nofun, fun h => absurd rfl h⟩
  | ok _ =>
      rw [seqPost_ok]
      refine wp_mono (wp_undoPorts hip (hshrunk.addresses.trans h.addresses)) ?_
      rintro r s' ⟨hr', hrel, htried⟩
      exact ⟨hr', fun hhalt => ⟨s₂, hshrunk, hrel, hpod nofun, htried hhalt⟩⟩

/-- The ports are as they were, and no call was made that takes one away. -/
structure Alone (s s' : World) : Prop where
  ports : s'.ports = s.ports
  alone : PortsAlone s s'

instance : Steady Alone where
  refl s := ⟨rfl, PortsAlone.refl s⟩
  trans _ _ _ h h' := ⟨h'.ports.trans h.ports, h.alone.trans h'.alone⟩
  still h := ⟨h.ports, Still.portsAlone h⟩

theorem alone_assign (f : Obj → Obj) : Within Alone (assign u f) :=
  fun _ => ⟨rfl, [], rfl, fun _ hx => absurd hx List.not_mem_nil⟩

theorem alone_save : Within Alone (save env u) :=
  within_save_of fun _ _ _ => ⟨rfl, [], rfl, fun _ hx => absurd hx List.not_mem_nil⟩

theorem alone_undoSandbox : Within Alone (undoSandbox env u) := by
  refine (within_read _).bind fun pod => ?_
  cases pod with
  | none => exact within_pure _
  | some pod =>
      refine Within.swallow (Within.bind (Within.bind ?_ fun _ => ?_) fun _ => alone_assign _)
      · refine Within.tolerate (within_call (fun s => ?_) fun s => ?_)
        · exact ⟨rfl, (PortsAlone.refl s).turn rfl⟩
        · exact ⟨rfl, (PortsAlone.refl s).turn rfl⟩
      · refine Within.tolerate (within_call (fun s => ?_) fun s => ?_)
        · exact ⟨rfl, (PortsAlone.refl s).turn rfl⟩
        · exact ⟨rfl, (PortsAlone.refl s).turn rfl⟩

/-- An undo that finds an address list with nothing in it leaves the port alone. -/
theorem wp_undoCreate_noAddress {net : NetId} (h : (s.mem u).val.addresses = [(net, [])]) :
    wp (undoCreate env u) (fun r s' => (∀ e, r ≠ .raise e) ∧ Alone s s') s := by
  unfold undoCreate
  rw [wp_bind]
  refine wp_mono (wp_and wp_undoSandbox (alone_undoSandbox.wp s)) ?_
  rintro r s₂ ⟨⟨hr, hshrunk, -⟩, halone⟩
  have haddr : (s₂.mem u).val.addresses = [(net, [])] := hshrunk.addresses.trans h
  cases r with
  | raise e => exact absurd rfl (hr e)
  | halt => exact ⟨nofun, halone⟩
  | ok _ =>
      unfold undoPorts
      rw [seqPost_ok, wp_bind, wp_obj, seqPost_ok, haddr]
      unfold onlyIf
      rw [if_pos (List.cons_ne_nil _ _)]
      refine wp_swallow_of ?_
      unfold deleteNeutronPorts
      have hall : addrsOf (s₂.mem u).val = [] := by
        unfold addrsOf
        rw [haddr]
        rfl
      have hne : (id (s₂.mem u).val).addresses ≠ [] := by
        rw [id, haddr]
        exact List.cons_ne_nil _ _
      rw [wp_bind, wp_bind, wp_obj, seqPost_ok]
      unfold onlyIf
      rw [if_pos hne, id, hall]
      exact ⟨nofun, trans_of Alone halone (alone_assign _ s₂)⟩

/-! ## What a failed create should leave -/

/-- Whether a create has cleaned up behind itself: every sandbox and every port it made was
tried to be removed, no port is gone that was there before, and the tenant's port was tried to
be unbound. -/
structure Tidy (u : Uuid) (nets : List RequestedNetwork) (s s' : World) : Prop where
  sandboxes : ∀ b ∈ s'.sandboxes, s.nextId ≤ b.id → RemovalTried s b.id s'
  made : ∀ q ∈ s'.ports, s.nextId ≤ q.id → Tried s (.deletePort q.id) s'
  kept : ∀ q ∈ s.ports, ∃ q' ∈ s'.ports, q'.id = q.id
  bound : ∀ q ∈ s'.ports, ∀ net, nets.head? = some net → net.port = some q.id →
    q.device = some u → UnbindTried s q.id s'

/-- The ids in use were given out before. -/
structure Numbered (s : World) : Prop where
  ports : ∀ q ∈ s.ports, q.id < s.nextId
  sandboxes : ∀ b ∈ s.sandboxes, b.id < s.nextId

/-- The networks as `utils.build_requested_networks` gives them: a port is kept when it is the
tenant's, and it is not in use. -/
structure Requested (u : Uuid) (nets : List RequestedNetwork) (s : World) : Prop where
  preserved : ∀ net ∈ nets, net.preserveOnDelete = net.port.isSome
  unbound : ∀ net ∈ nets, ∀ q ∈ s.ports, net.port = some q.id → q.device ≠ some u

/-- A record that was never built. -/
structure Blank (u : Uuid) (s : World) : Prop where
  containerId : (s.mem u).val.containerId = none
  addresses : (s.mem u).val.addresses = []

/-- The create of a record, by the method that the manager calls for it. -/
def Owner.create (env : Env) (nets : List RequestedNetwork) (vols : RequestedVolumes) :
    Owner → Prog World Exn Unit
  | .capsule c => createCapsule env c nets vols
  | .own u => Cri.create env u nets vols

/-- What the create builds, before anything is undone. -/
def Owner.build (env : Env) (nets : List RequestedNetwork) (vols : RequestedVolumes) :
    Owner → Prog World Exn Unit
  | .capsule c => buildCapsule env c nets
  | .own u => Cri.create env u nets vols

/-- The port that the create is given, with the request it is for. -/
def Owner.portGiven (env : Env) (nets : List RequestedNetwork) (s : World) :
    Owner → Option (RequestedNetwork × Port)
  | .capsule c => Cri.portGiven env c.uuid nets s
  | .own u =>
      if env.answer s.tick (.refuseOptions u) = .ok then
        Cri.portGiven env u nets (s.turn env (.refuseOptions u))
      else none

/-- A create that fails passes its own exception on and leaves nothing behind. -/
def LeavesNothing (env : Env) (o : Owner) (nets : List RequestedNetwork) (vols : RequestedVolumes)
    (s : World) : Prop :=
  ∀ e, (o.create env nets vols s).1 = .raise e →
    (o.build env nets vols s).1 = .raise e ∧ Tidy o.uuid nets s (o.create env nets vols s).2

/-- The port that the create is given, if it is given one, is one that the undo finds: the
record is a capsule and the port has an address. -/
def Findable (env : Env) (o : Owner) (nets : List RequestedNetwork) (s : World) : Prop :=
  ∀ net p, o.portGiven env nets s = some (net, p) → p.fixedIps ≠ [] ∧ ∃ c, o = .capsule c

theorem portGiven_head {nets : List RequestedNetwork} {net : RequestedNetwork} {p : Port}
    (h : portGiven env u nets s = some (net, p)) : nets.head? = some net := by
  cases nets with
  | nil => cases h
  | cons n nets =>
      unfold portGiven at h
      simp only at h
      split at h
      · obtain ⟨_, -, heq⟩ := Option.map_eq_some_iff.mp h
        cases heq
        rfl
      · cases h

/-- A port that was given and then left alone was not cleaned up. -/
theorem Wired.not_tidy {nets : List RequestedNetwork} {net : RequestedNetwork} {p : Port}
    {s' : World} (h : Wired u net p s s') (hhead : nets.head? = some net) :
    ¬ Tidy u nets s s' := by
  intro htidy
  obtain ⟨q, hq, hid, hdevice⟩ := h.there
  cases hport : net.port with
  | none =>
      have hle : s.nextId ≤ q.id := by rw [hid, h.made hport]
      exact h.alone.not_tried rfl (htidy.made q hq hle)
  | some id =>
      obtain ⟨hp, -⟩ := h.tenant id hport
      have hnet : net.port = some q.id := by rw [hport, hid, hp]
      obtain ⟨a, hshow, -⟩ := htidy.bound q hq net hhead hnet (hdevice (by rw [hport]; rfl))
      exact h.alone.not_tried rfl ⟨a, hshow⟩

/-- A create that was given no port leaves nothing. -/
theorem Still.tidy {nets : List RequestedNetwork} {s' : World} (h : Still s s')
    (hnum : Numbered s) (hreq : Requested u nets s) : Tidy u nets s s' where
  sandboxes b hb hle := by
    rw [h.sandboxes] at hb
    exact absurd (hnum.sandboxes b hb) (Nat.not_lt.mpr hle)
  made q hq hle := by
    rw [h.ports] at hq
    exact absurd (hnum.ports q hq) (Nat.not_lt.mpr hle)
  kept q hq := ⟨q, by rwa [h.ports], rfl⟩
  bound q hq net hnet hport hdevice := by
    rw [h.ports] at hq
    exact absurd hdevice (hreq.unbound net (List.mem_of_mem_head? hnet) q hq hport)

/-- An undo that found the port on the record has cleaned up. -/
theorem Built.tidy {nets : List RequestedNetwork} {net : RequestedNetwork} {p : Port}
    {s₁ s₂ s' : World} (h : Built u net p s s₁) (hnum : Numbered s) (hreq : Requested u nets s)
    (hhead : nets.head? = some net) (hshrunk : Shrunk u s₁ s₂)
    (hrel : Released net.preserveOnDelete p.id s₂ s')
    (hpod : ∀ pod, (s₁.mem u).val.containerId = some pod → RemovalTried s₁ pod s₂)
    (hport : PortTried net.preserveOnDelete s₂ p.id s') : Tidy u nets s s' := by
  have hkeep := hreq.preserved net (List.mem_of_mem_head? hhead)
  have hlog₁ : s.log <:+ s₁.log := h.wired.alone.log
  have hlog₂ : s.log <:+ s₂.log := hlog₁.trans hshrunk.log
  -- The port of an id that is new can only be the one that was made.
  have hnew : ∀ q ∈ s'.ports, s.nextId ≤ q.id → q.id = p.id := by
    intro q hq hle
    obtain ⟨q₂, hq₂, hid₂⟩ := hrel.known q hq
    rw [hshrunk.ports] at hq₂
    obtain hp | ⟨q₀, hq₀, hid₀⟩ := h.wired.known q₂ hq₂
    · rw [← hid₂, hp]
    · rw [← hid₂, ← hid₀] at hle
      exact absurd (hnum.ports q₀ hq₀) (Nat.not_lt.mpr hle)
  constructor
  case sandboxes =>
    intro b hb hle
    rw [hrel.sandboxes] at hb
    obtain ⟨b₁, hb₁, hid⟩ := hshrunk.sandboxes b hb
    obtain hold | hname := h.named b₁ hb₁
    · rw [← hid] at hle
      exact absurd (hnum.sandboxes b₁ hold) (Nat.not_lt.mpr hle)
    · rw [← hid]
      exact (hpod _ hname).widen hlog₁ hrel.log
  case made =>
    intro q hq hle
    have hid := hnew q hq hle
    cases hnet : net.port with
    | some id =>
        obtain ⟨hp, q₀, hq₀, hid₀⟩ := h.wired.tenant id hnet
        rw [hid, hp, ← hid₀] at hle
        exact absurd (hnum.ports q₀ hq₀) (Nat.not_lt.mpr hle)
    | none =>
        rw [hnet] at hkeep
        rw [hkeep] at hport
        rw [hid]
        exact Tried.widen hport hlog₂ (List.suffix_refl _)
  case kept =>
    intro q hq
    obtain ⟨q₁, hq₁, hid₁⟩ := h.wired.kept q hq
    rw [← hshrunk.ports] at hq₁
    obtain ⟨hfree, hid⟩ | ⟨q', hq', hid'⟩ := hrel.kept q₁ hq₁
    · -- Only a port that was made is deleted, and its id is new.
      rw [hfree] at hkeep
      have hnone : net.port = none := Option.isNone_iff_eq_none.mp (by simpa using hkeep.symm)
      have hlt := hnum.ports q hq
      rw [← hid₁, hid, h.wired.made hnone] at hlt
      exact absurd hlt (Nat.lt_irrefl _)
    · exact ⟨q', hq', hid'.trans hid₁⟩
  case bound =>
    intro q hq net' hnet' hid hdevice
    cases hhead.symm.trans hnet'
    obtain ⟨hp, -⟩ := h.wired.tenant _ hid
    rw [hid] at hkeep
    rw [hkeep] at hport
    rw [← hp]
    exact UnbindTried.since hport hlog₂

/-- How the create of a capsule ends, by what its undo does. -/
theorem wp_createCapsule {c : Capsule} {nets : List RequestedNetwork} {vols : RequestedVolumes}
    {Q : Result Exn Unit → World → Prop}
    (hok : ∀ s', Q (.ok ()) s') (hhalt : ∀ s', Q .halt s')
    (hundo : ∀ e s₁, (buildCapsule env c nets s) = (.raise e, s₁) →
      wp (undoCreate env c.uuid) (fun r s' => (∀ e, r ≠ .raise e) ∧ (r = .ok () → Q (.raise e) s'))
        s₁) : wp (createCapsule env c nets vols) Q s := by
  unfold createCapsule
  rw [wp_bind, wp_reraising]
  rcases hb : buildCapsule env c nets s with ⟨r, s₁⟩
  refine wp_of_run hb ?_
  cases r with
  | ok _ => exact hok _
  | halt => exact hhalt _
  | raise e =>
      rw [exceptPost_raise, wp_andThen]
      refine wp_mono (hundo e s₁ hb) ?_
      rintro r s' ⟨hr, hq⟩
      cases r with
      | ok _ => exact hq rfl
      | raise e' => exact absurd rfl (hr e')
      | halt => exact hhalt _

theorem undoCreate_blank (h : Blank u s) : undoCreate env u s = (.ok (), s) := by
  have hsandbox : wp (undoSandbox env u) (fun r s' => (r, s') = (.ok (), s)) s := by
    unfold undoSandbox
    rw [wp_bind, wp_obj, seqPost_ok, h.containerId]
    rfl
  have hports : wp (undoPorts env u) (fun r s' => (r, s') = (.ok (), s)) s := by
    unfold undoPorts
    rw [wp_bind, wp_obj, seqPost_ok]
    exact wp_onlyIf (fun hne => absurd h.addresses hne) fun _ => rfl
  change wp (undoCreate env u) (fun r s' => (r, s') = (.ok (), s)) s
  unfold undoCreate
  rw [wp_bind]
  exact wp_of_run hsandbox hports

section Capsule

variable {c : Capsule} {nets : List RequestedNetwork} {vols : RequestedVolumes}

/-- A capsule whose create was given no port has nothing to undo. -/
theorem leavesNothing_noPort (hnum : Numbered s) (hreq : Requested c.uuid nets s)
    (hblank : Blank c.uuid s) (hgiven : portGiven env c.uuid nets s = none) :
    LeavesNothing env (.capsule c) nets vols s := by
  change wp (createCapsule env c nets vols) (fun r s' => ∀ e, r = .raise e →
    (buildCapsule env c nets s).1 = .raise e ∧ Tidy c.uuid nets s s') s
  refine wp_createCapsule (fun _ => nofun) (fun _ => nofun) fun e s₁ hb => ?_
  have hout : Outcome env c.uuid nets s _ _ := wp_buildCapsule c nets
  rw [hb] at hout
  unfold Outcome at hout
  rw [hgiven] at hout
  obtain ⟨-, hstill⟩ := hout
  have hblank₁ : Blank c.uuid s₁ := ⟨by rw [hstill.mem, hblank.containerId],
    by rw [hstill.mem, hblank.addresses]⟩
  refine wp_of_run (undoCreate_blank hblank₁) ⟨nofun, ?_⟩
  rintro - e' he
  cases he
  exact ⟨by rw [hb], Still.tidy hstill hnum hreq⟩

variable {net : RequestedNetwork} {p : Port}

theorem leavesNothing_address (hnum : Numbered s) (hreq : Requested c.uuid nets s)
    (hgiven : portGiven env c.uuid nets s = some (net, p)) (hip : p.fixedIps ≠ []) :
    LeavesNothing env (.capsule c) nets vols s := by
  change wp (createCapsule env c nets vols) (fun r s' => ∀ e, r = .raise e →
    (buildCapsule env c nets s).1 = .raise e ∧ Tidy c.uuid nets s s') s
  refine wp_createCapsule (fun _ => nofun) (fun _ => nofun) fun e s₁ hb => ?_
  have hbuilt : Outcome env c.uuid nets s _ _ := wp_buildCapsule c nets
  rw [hb] at hbuilt
  unfold Outcome at hbuilt
  rw [hgiven] at hbuilt
  refine wp_mono (wp_undoCreate hip hbuilt) ?_
  rintro r s' ⟨hr, hdone⟩
  refine ⟨hr, ?_⟩
  rintro rfl e' he
  cases he
  obtain ⟨s₂, hshrunk, hrel, hpod, hport⟩ := hdone nofun
  exact ⟨by rw [hb], hbuilt.tidy hnum hreq (portGiven_head hgiven) hshrunk hrel hpod hport⟩

theorem not_tidy_noAddress {e : Exn} (hgiven : portGiven env c.uuid nets s = some (net, p))
    (hip : p.fixedIps = []) (hfail : (createCapsule env c nets vols s).1 = .raise e) :
    ¬ Tidy c.uuid nets s (createCapsule env c nets vols s).2 := by
  have hwp : wp (createCapsule env c nets vols) (fun r s' => ∀ e, r = .raise e →
      ¬ Tidy c.uuid nets s s') s := by
    refine wp_createCapsule (fun _ => nofun) (fun _ => nofun) fun e s₁ hb => ?_
    have hbuilt : Outcome env c.uuid nets s _ _ := wp_buildCapsule c nets
    rw [hb] at hbuilt
    unfold Outcome at hbuilt
    rw [hgiven] at hbuilt
    have haddr : (s₁.mem c.uuid).val.addresses = [(net.network, [])] := by
      rw [hbuilt.addresses]
      unfold Neutron.addressesOf
      rw [hip]
      rfl
    refine wp_mono (wp_undoCreate_noAddress haddr) ?_
    rintro r s' ⟨hr, halone⟩
    refine ⟨hr, fun _ _ _ => ?_⟩
    exact (hbuilt.wired.still halone.ports halone.alone).not_tidy (portGiven_head hgiven)
  exact hwp e hfail

end Capsule

section Own

variable {nets : List RequestedNetwork} {vols : RequestedVolumes}

theorem wp_create_noPort (hgiven : (Owner.own u).portGiven env nets s = none) :
    wp (create env u nets vols) (fun r s' => ∀ e, r = .raise e → Still s s') s := by
  have hturn := still_turn env (c := .refuseOptions u) rfl s
  unfold create
  rw [wp_bind]
  refine wp_call (fun hok => ?_) (fun _ _ _ _ => hturn) (fun _ _ _ => hturn)
  have hnone : portGiven env u nets (s.turn env (.refuseOptions u)) = none :=
    (if_pos hok).symm.trans hgiven
  rw [seqPost_ok, wp_bind]
  refine wp_mono (wp_createPodSandbox nets) fun r s₁ hr => ?_
  unfold Outcome at hr
  simp only [id, hnone] at hr
  have hstill := trans_of Still hturn hr.2
  cases r with
  | ok a => exact absurd rfl (hr.1 a)
  | raise e => exact fun _ _ => hstill
  | halt => exact fun _ _ => hstill

theorem wp_create_port {net : RequestedNetwork} {p : Port}
    (hgiven : (Owner.own u).portGiven env nets s = some (net, p)) :
    wp (create env u nets vols) (fun _ s' => Wired u net p s s') s := by
  have hturn := still_turn env (c := .refuseOptions u) rfl s
  have hok : env.answer s.tick (.refuseOptions u) = .ok := by
    by_contra hne
    cases (if_neg hne).symm.trans hgiven
  have hsome : portGiven env u nets (s.turn env (.refuseOptions u)) = some (net, p) :=
    (if_pos hok).symm.trans hgiven
  have hrest : Within Alone (do
      createContainerIn env u u false none
      assign u (Obj.setStatus .created)
      assign u (Obj.setStatusReason none)) :=
    (within_createContainerIn_of (fun _ => alone_assign _) alone_save _ _ _).bind fun _ =>
      (alone_assign _).bind fun _ => alone_assign _
  unfold create
  rw [wp_bind]
  refine wp_call (fun _ => ?_) (fun e he => ?_) (fun hhalt => ?_)
  · rw [seqPost_ok, wp_bind]
    refine wp_mono (wp_createPodSandbox nets) fun r s₁ hr => ?_
    unfold Outcome at hr
    simp only [id, hsome] at hr
    have hwired := hr.wired.since hturn rfl
    cases r with
    | ok a => exact hwired.still (hrest s₁).ports (hrest s₁).alone
    | raise e => exact hwired
    | halt => exact hwired
  · rw [hok] at he
    cases he
  · rw [hok] at hhalt
    cases hhalt

theorem own_portGiven_head {net : RequestedNetwork} {p : Port}
    (h : (Owner.own u).portGiven env nets s = some (net, p)) : nets.head? = some net := by
  unfold Owner.portGiven at h
  simp only at h
  split at h
  · exact portGiven_head h
  · cases h

end Own

/-- A create that fails passes its own exception on and leaves nothing behind exactly when the
port it was given is one that the undo finds, or it was given none. -/
theorem leavesNothing_iff_findable (env : Env) (o : Owner) (nets : List RequestedNetwork)
    (vols : RequestedVolumes) (s : World) (e : Exn) (hnum : Numbered s)
    (hreq : Requested o.uuid nets s) (hblank : Blank o.uuid s)
    (hfail : (o.create env nets vols s).1 = .raise e) :
    LeavesNothing env o nets vols s ↔ Findable env o nets s := by
  cases o with
  | capsule c =>
      cases hgiven : portGiven env c.uuid nets s with
      | none =>
          refine iff_of_true (leavesNothing_noPort hnum hreq hblank hgiven) fun net p h => ?_
          cases hgiven.symm.trans h
      | some given =>
          obtain ⟨net, p⟩ := given
          constructor
          · intro hleaves net' p' h
            cases hgiven.symm.trans h
            refine ⟨fun hip => ?_, c, rfl⟩
            have hfail' : (createCapsule env c nets vols s).1 = .raise e := hfail
            exact not_tidy_noAddress hgiven hip hfail' (hleaves e hfail).2
          · intro hfind
            exact leavesNothing_address hnum hreq hgiven (hfind net p hgiven).1
  | own u =>
      cases hgiven : (Owner.own u).portGiven env nets s with
      | none =>
          refine iff_of_true (fun e he => ⟨he, ?_⟩) fun net p h => ?_
          · have hwp : wp (create env u nets vols) _ s := wp_create_noPort hgiven
            exact Still.tidy (hwp e he) hnum hreq
          · cases hgiven.symm.trans h
      | some given =>
          obtain ⟨net, p⟩ := given
          refine iff_of_false (fun hleaves => ?_) fun hfind => ?_
          · have hwp : wp (create env u nets vols) _ s := wp_create_port hgiven
            have hwired : Wired u net p s _ := hwp
            exact hwired.not_tidy (own_portGiven_head hgiven) (hleaves e hfail).2
          · obtain ⟨-, c, hc⟩ := hfind net p hgiven
            cases hc

/-- A node whose runtime refuses every sandbox. -/
def noSandbox : Env where
  answer _ c :=
    match c with
    | .runPodSandbox _ => .raise { cls := .rpcError .other }
    | _ => .ok

/-- A record that is being created on a network of the tenant's. -/
def blank : World := World.ofRows [(1, { status := .creating, host := some "node" })]

theorem leavesNothing_capsule :
    Findable noSandbox (.capsule { uuid := 1 }) [{ network := 7 }] blank ∧
      LeavesNothing noSandbox (.capsule { uuid := 1 }) [{ network := 7 }] [] blank := by
  have hfind : Findable noSandbox (.capsule { uuid := 1 }) [{ network := 7 }] blank := by
    intro net p h
    cases h
    exact ⟨List.cons_ne_nil _ _, _, rfl⟩
  refine ⟨hfind, (leavesNothing_iff_findable noSandbox _ _ _ blank _ ?_ ?_ ?_ rfl).mpr hfind⟩
  · exact ⟨fun _ hq => absurd hq List.not_mem_nil, fun _ hb => absurd hb List.not_mem_nil⟩
  · refine ⟨fun net hnet => ?_, fun _ _ _ hq => absurd hq List.not_mem_nil⟩
    rw [List.mem_singleton.mp hnet]
    rfl
  · exact ⟨rfl, rfl⟩

/-- The port of a container of its own is left when its sandbox cannot be made. -/
theorem own_port_left : ¬ LeavesNothing noSandbox (.own 1) [{ network := 7 }] [] blank := by
  intro h
  have hwp : wp (create noSandbox 1 [{ network := 7 }] []) _ blank := wp_create_port rfl
  have hwired : Wired 1 { network := 7 } _ blank _ := hwp
  exact hwired.not_tidy rfl (h _ rfl).2

end Cri

end Zun
