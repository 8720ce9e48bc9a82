import Zun.Api.Refusals

/-!
# What a refused container leaves

The volumes are made one after the other, so what is left of them is said by what the first mount
makes and by whether all of them are found.  Then the host is looked up, which is the one place
where the volumes' rows are taken back.
-/

namespace Zun

open Effect Prog

namespace Refusals

variable {env : Env} {s : World}

/-- What a mount leaves at Cinder. -/
def World.making (s : World) (i : Nat) (b : Bool) : World :=
  if b = true then { s with cinder := i :: s.cinder } else s

@[simp] theorem making_volumes {i : Nat} {b : Bool} : (s.making i b).volumes = s.volumes := by
  cases b <;> rfl

@[simp] theorem making_false {i : Nat} : s.making i false = s := rfl

@[simp] theorem making_true {i : Nat} :
    s.making i true = { s with cinder := i :: s.cinder } := rfl

/-! ### A container's volumes -/

theorem wp_provide {i : Nat} {m : Mount} :
    wp (provide env i m)
      (fun r s' => s' = s.making i (m.makesCinder env i) ∧
        (m.provided env i = true → r = .ok true) ∧
        (m.provided env i = false → r = .ok false ∨ ∃ e, r = .raise e)) s := by
  unfold provide Mount.provided Mount.makesCinder
  split
  case isTrue htype =>
    split
    case isTrue hsource =>
      apply wp_call_bind
      · intro hsearch
        apply wp_call_bind
        · intro husable
          simp [htype, hsource, hsearch, husable]
        · intro husable e
          simp [hsource, husable]
      · intro hsearch e
        simp [hsource, hsearch]
    case isFalse hsource =>
      have hsource : m.sourced = false := by simpa using hsource
      split
      case isTrue hsize =>
        apply wp_call_bind
        · intro hmade
          apply wp_call_bind
          · intro husable
            simp [htype, hsource, hsize, hmade, husable]
          · intro husable e
            simp [htype, hsource, hsize, hmade, husable]
        · intro hmade e
          simp [hmade]
      case isFalse hsize =>
        have hsize : m.sized = false := by simpa using hsize
        simp [hsize]
  case isFalse htype =>
    split
    case isTrue hbind =>
      unfold checkContentsSize
      cases hsize : tooLarge env (m.source.getD "") with
      | none => simp [hbind]
      | some size => simp [htype]
    case isFalse hbind => simp [htype, hbind]

/-- The row of a mount that is built, and what is left of one that is not. -/
theorem wp_buildVolume {i : Nat} {m : Mount} {Q : Result Error Unit → World → Prop}
    (hbuilt : m.built env i = true →
      Q (.ok ()) { s.making i (m.makesCinder env i) with volumes := i :: s.volumes })
    (hraised : m.built env i = false → ∀ e, Q (.raise e) (s.making i (m.makesCinder env i))) :
    wp (buildVolume env i m) Q s := by
  unfold buildVolume
  rw [wp_bind]
  refine wp_mono wp_provide fun r s' hr => ?_
  obtain ⟨rfl, hok, hno⟩ := hr
  unfold Mount.built at hbuilt hraised
  cases hp : m.provided env i with
  | false =>
    have hraised := hraised (by simp [hp])
    rcases hno hp with rfl | ⟨e, rfl⟩
    · rw [seqPost_ok]
      split
      · exact hraised _
      · exact hraised _
    · exact hraised e
  | true =>
    rw [hok hp, seqPost_ok]
    split
    case isTrue how => exact hraised (by simp [how.1, how.2]) _
    case isFalse how =>
      have how : (decide (m.type ≠ "bind") && m.owned) = false := by simpa using how
      apply wp_call
      · intro hrow
        have hbuilt := hbuilt (by simp only [hp, how, hrow]; rfl)
        simpa using hbuilt
      · intro hrow e
        exact hraised (by simp [hrow]) e

/-- Volumes are made, and nothing else happens. -/
structure Grows (s s' : World) : Prop where
  volumes : s.volumes ⊆ s'.volumes
  cinder : s.cinder ⊆ s'.cinder
  records : s'.records = s.records
  mappings : s'.mappings = s.mappings
  allocations : s'.allocations = s.allocations

instance : IsPreorder World Grows where
  refl _ := ⟨fun _ h => h, fun _ h => h, rfl, rfl, rfl⟩
  trans _ _ _ h h' :=
    ⟨fun _ hx => h'.volumes (h.volumes hx), fun _ hx => h'.cinder (h.cinder hx),
      h'.records.trans h.records, h'.mappings.trans h.mappings,
      h'.allocations.trans h.allocations⟩

theorem grows_making (s : World) (i : Nat) (b : Bool) : Grows s (s.making i b) := by
  cases b with
  | false => exact refl_of Grows s
  | true => exact ⟨fun _ h => h, fun _ h => List.mem_cons_of_mem _ h, rfl, rfl, rfl⟩

theorem Grows.row {s' : World} (h : Grows s s') (i : Nat) :
    Grows s { s' with volumes := i :: s'.volumes } :=
  ⟨fun _ hx => List.mem_cons_of_mem _ (h.volumes hx), h.cinder, h.records, h.mappings, h.allocations⟩

theorem within_buildVolume (i : Nat) (m : Mount) : Within Grows (buildVolume env i m) := by
  intro s
  show wp (buildVolume env i m) (fun _ s' => Grows s s') s
  apply wp_buildVolume
  · intro _
    have h := (grows_making s i (m.makesCinder env i)).row i
    rwa [making_volumes] at h
  · intro _ _
    exact grows_making ..

theorem within_buildRequestedVolumes (env : Env) :
    ∀ (ms : List Mount) (i : Nat), Within Grows (buildRequestedVolumes env i ms)
  | [], _ => within_ret _
  | m :: ms, i => by
    apply (within_buildVolume i m).bind
    intro _
    apply (within_buildRequestedVolumes env ms (i + 1)).bind
    intro _
    exact within_ret _

/-- What is made for the first mount is there in the end. -/
theorem remains_buildRequestedVolumes (i : Nat) (m : Mount) (ms : List Mount) :
    wp (buildRequestedVolumes env i (m :: ms))
      (fun _ s' => m.built env i = true ∨ m.makesCinder env i = true →
        s'.volumes ≠ [] ∨ s'.cinder ≠ []) s := by
  rw [buildRequestedVolumes, wp_bind]
  apply wp_buildVolume
  · intro _
    have hwithin : Within Grows (do
        let volumes ← buildRequestedVolumes env (i + 1) ms
        ret (i :: volumes)) :=
      (within_buildRequestedVolumes env ms (i + 1)).bind fun _ => within_ret _
    rw [seqPost_ok]
    refine wp_mono (hwithin.wp _) fun r s' hs _ => ?_
    left
    exact List.ne_nil_of_mem (hs.volumes (List.mem_cons_self ..))
  · intro hbuilt e hmade
    rw [hbuilt] at hmade
    have hmade : m.makesCinder env i = true := by simpa using hmade
    right
    rw [hmade, making_true]
    simp

/-- Mounts that all have their rows and no volume made for them. -/
theorem run_buildRequestedVolumes :
    ∀ {ms : List Mount} {i : Nat} {s : World}, allFound env i ms = true →
      buildRequestedVolumes env i ms s = (.ok (List.range' i ms.length),
        { s with volumes := (List.range' i ms.length).reverse ++ s.volumes })
  | [], _, _, _ => rfl
  | m :: ms, i, s, h => by
    simp only [allFound, Bool.and_eq_true, Bool.not_eq_true'] at h
    obtain ⟨⟨hbuilt, hmade⟩, hrest⟩ := h
    have hone : buildVolume env i m s = (.ok (), { s with volumes := i :: s.volumes }) := by
      have h : wp (buildVolume env i m)
          (fun r s' => (r, s') = (.ok (), { s with volumes := i :: s.volumes })) s := by
        apply wp_buildVolume
        · intro _
          rw [hmade, making_false]
        · intro hno
          rw [hbuilt] at hno
          cases hno
      exact h
    have hrun := run_buildRequestedVolumes (s := { s with volumes := i :: s.volumes }) hrest
    simp [buildRequestedVolumes, bind, andThen, hone, hrun, ret, List.range'_succ]

/-- When all rows are made and nothing is left at Cinder, no volume was made for a mount. -/
theorem returns_buildRequestedVolumes :
    ∀ (ms : List Mount) (i : Nat) {s : World},
      wp (buildRequestedVolumes env i ms)
        (fun r s' => (∃ l, r = .ok l) → s'.cinder = [] → allFound env i ms = true) s
  | [], _, _ => fun _ _ => rfl
  | m :: ms, i, s => by
    rw [buildRequestedVolumes, wp_bind]
    apply wp_buildVolume
    · intro hbuilt
      rw [seqPost_ok, wp_bind]
      have hgrows := (within_buildRequestedVolumes env ms (i + 1)).wp
        { s.making i (m.makesCinder env i) with volumes := i :: s.volumes }
      refine wp_mono (wp_and hgrows (returns_buildRequestedVolumes ms (i + 1))) fun r s' hr => ?_
      cases r with
      | ok l =>
        intro _ hnone
        have hnone : s'.cinder = [] := hnone
        have hrest := hr.2 ⟨l, rfl⟩ hnone
        cases hmade : m.makesCinder env i with
        | false => simp [allFound, hbuilt, hmade, hrest]
        | true =>
          have hleft : i ∈ s'.cinder := by
            apply hr.1.cinder
            rw [hmade]
            exact List.mem_cons_self ..
          rw [hnone] at hleft
          cases hleft
      | raise e => rintro ⟨l, hl⟩; cases hl
      | halt => rintro ⟨l, hl⟩; cases hl
    · rintro _ e ⟨l, hl⟩
      cases hl

/-! ### The host -/

theorem wp_destroyRecord {k : Key} {handler : Bool} {Q : Result Error Unit → World → Prop}
    (hok : env.passes (.destroyRecord k handler) = true → s.has k = true → Q (.ok ()) (s.drop k))
    (hgone : s.has k = false → Q (.raise .containerNotFound) s)
    (hraise : env.passes (.destroyRecord k handler) = false → ∀ e, Q (.raise e) s) :
    wp (destroyRecord env k handler) Q s := by
  unfold destroyRecord
  apply wp_call_bind
  · intro hpasses
    rw [wp_bind, wp_read, seqPost_ok, wp_ite]
    split
    case isTrue hhas => exact hok hpasses hhas
    case isFalse hhas => exact hgone (by simpa using hhas)
  · exact hraise

/-- Only rows of volumes go. -/
structure SameRest (s s' : World) : Prop where
  records : s'.records = s.records
  mappings : s'.mappings = s.mappings
  cinder : s'.cinder = s.cinder
  allocations : s'.allocations = s.allocations

instance : IsPreorder World SameRest where
  refl _ := ⟨rfl, rfl, rfl, rfl⟩
  trans _ _ _ h h' :=
    ⟨h'.records.trans h.records, h'.mappings.trans h.mappings, h'.cinder.trans h.cinder,
      h'.allocations.trans h.allocations⟩

theorem wp_discardVolume {i : Nat} (hmappings : s.mappings = []) :
    wp (discardVolume env i)
      (fun r s' => SameRest s s' ∧
        (discards env i = true → r = .ok () ∧ s'.volumes = s.volumes.filter (· ≠ i)) ∧
        (discards env i = false → s'.volumes = s.volumes)) s := by
  have hsame : SameRest s s := refl_of SameRest s
  unfold discardVolume destroyVolume discards
  rw [wp_tryExcept]
  apply wp_call_bind
  · intro hcount
    rw [wp_bind, wp_read, seqPost_ok]
    have hnone : (id s).mappings.contains i = false := by simp [hmappings]
    rw [hnone, if_neg Bool.false_ne_true]
    apply wp_call_bind
    · intro hdestroy
      rw [wp_bind, wp_read, seqPost_ok, wp_ite]
      split
      case isTrue hthere =>
        simp only [wp_modify, exceptPost_ok, hcount, hdestroy]
        exact ⟨⟨rfl, rfl, rfl, rfl⟩, fun _ => ⟨trivial, rfl⟩, nofun⟩
      case isFalse hthere =>
        have hgone : i ∉ s.volumes := by simpa using hthere
        have hfilter : s.volumes.filter (· ≠ i) = s.volumes := by
          rw [List.filter_eq_self]
          intro j hj
          simp only [ne_eq, decide_not, Bool.not_eq_eq_eq_not, Bool.not_true, decide_eq_false_iff_not]
          rintro rfl
          exact hgone hj
        simp only [wp_raise, exceptPost_raise, reduceIte, wp_ret, hcount, hdestroy]
        exact ⟨hsame, fun _ => ⟨trivial, hfilter.symm⟩, nofun⟩
    · intro hdestroy e
      rw [exceptPost_raise, wp_ite, hdestroy]
      split
      · exact ⟨hsame, by simp, fun _ => rfl⟩
      · exact ⟨hsame, by simp, fun _ => rfl⟩
  · intro hcount e
    rw [exceptPost_raise, wp_ite, hcount]
    split
    · exact ⟨hsame, by simp, fun _ => rfl⟩
    · exact ⟨hsame, by simp, fun _ => rfl⟩

/-- The loop of `_validate_host`: it takes back the rows of all volumes, unless one will not go. -/
theorem wp_discardVolumes :
    ∀ {ids : List Nat} {s : World}, s.mappings = [] →
      wp (forEach ids (discardVolume env))
        (fun _ s' => SameRest s s' ∧
          ((∀ i ∈ ids, discards env i = true) → ∀ i ∈ s'.volumes, i ∈ s.volumes ∧ i ∉ ids) ∧
          ∀ i ∈ s.volumes, discards env i = false → i ∈ s'.volumes) s
  | [], s, _ =>
    ⟨refl_of SameRest s, fun _ i hi => ⟨hi, List.not_mem_nil⟩, fun i hi _ => hi⟩
  | j :: ids, s, hmappings => by
    rw [forEach, wp_andThen]
    refine wp_mono (wp_discardVolume hmappings) fun r s' hr => ?_
    obtain ⟨hsame, hgoes, hstays⟩ := hr
    have hkept : ∀ i ∈ s.volumes, discards env i = false → i ∈ s'.volumes := by
      intro i hi hno
      cases hj : discards env j with
      | false =>
        rw [hstays hj]
        exact hi
      | true =>
        rw [(hgoes hj).2, List.mem_filter]
        refine ⟨hi, ?_⟩
        simp only [ne_eq, decide_not, Bool.not_eq_eq_eq_not, Bool.not_true, decide_eq_false_iff_not]
        rintro rfl
        rw [hno] at hj
        cases hj
    have hend : r ≠ .ok () → ¬ ∀ i ∈ j :: ids, discards env i = true := by
      intro hr hall
      exact hr (hgoes (hall j (List.mem_cons_self ..))).1
    cases r with
    | ok _ =>
      rw [seqPost_ok]
      refine wp_mono (wp_discardVolumes (hsame.mappings.trans hmappings)) fun r t ht => ?_
      obtain ⟨hsame', hgoes', hstays'⟩ := ht
      refine ⟨trans_of SameRest hsame hsame', ?_, fun i hi hno => hstays' i (hkept i hi hno) hno⟩
      intro hall i hi
      have hj := hall j (List.mem_cons_self ..)
      obtain ⟨hi', hids⟩ := hgoes' (fun i hi => hall i (List.mem_cons_of_mem _ hi)) i hi
      rw [(hgoes hj).2, List.mem_filter] at hi'
      refine ⟨hi'.1, ?_⟩
      rw [List.mem_cons, not_or]
      exact ⟨by simpa using hi'.2, hids⟩
    | raise e =>
      refine ⟨hsame, fun hall => (hend ?_ hall).elim, hkept⟩
      intro hr
      cases hr
    | halt =>
      refine ⟨hsame, fun hall => (hend ?_ hall).elim, hkept⟩
      intro hr
      cases hr

/-! ### What is left of a refused container -/

/-- Nothing is there but records. -/
structure Bare (s : World) : Prop where
  volumes : s.volumes = []
  mappings : s.mappings = []
  cinder : s.cinder = []
  allocations : s.allocations = []

theorem nothing_iff : Nothing s ↔ s.records = [] ∧ Bare s :=
  ⟨fun h => ⟨h.records, h.volumes, h.mappings, h.cinder, h.allocations⟩,
    fun ⟨hr, h⟩ => ⟨hr, h.volumes, h.mappings, h.cinder, h.allocations⟩⟩

/-- The container's own record, and no other. -/
def containerRow (status : Status) (reason : Option String) : Row :=
  { key := .container, containerType := .container, status, statusReason := reason }

/-- What `_validate_host` leaves when the host is not known. -/
structure TurnedAway (env : Env) (ids : List Nat) (s s' : World) : Prop where
  mappings : s'.mappings = []
  cinder : s'.cinder = s.cinder
  allocations : s'.allocations = s.allocations
  dropped : env.passes (.destroyRecord .container false) = true → s'.records = []
  kept : env.passes (.destroyRecord .container false) = false →
    s'.records = s.records ∧ s'.volumes = s.volumes
  goes : env.passes (.destroyRecord .container false) = true →
    (∀ i ∈ ids, discards env i = true) → ∀ i ∈ s'.volumes, i ∈ s.volumes ∧ i ∉ ids
  stays : ∀ i ∈ s.volumes, discards env i = false → i ∈ s'.volumes

theorem wp_validateHost {host : String} {ids : List Nat} {r0 : Row}
    (hunknown : env.fails .getComputeNode = some .computeNodeNotFound)
    (hrecords : s.records = [r0]) (hkey : r0.key = .container) (hmappings : s.mappings = []) :
    wp (validateHost env .container host ids)
      (fun r s' => r ≠ .ok () ∧ TurnedAway env ids s s') s := by
  have hcall : call env .getComputeNode id s = (.raise .computeNodeNotFound, s) := by
    simp [call, hunknown]
  unfold validateHost
  rw [wp_tryExcept]
  apply wp_of_run hcall
  rw [exceptPost_raise, if_pos rfl, wp_bind]
  have hhas : s.has .container = true := by simp [World.has, hrecords, hkey]
  apply wp_destroyRecord
  · intro hpasses _
    rw [seqPost_ok, wp_bind]
    have hdropped : (s.drop .container).records = [] := by simp [World.drop, hrecords, hkey]
    refine wp_mono (wp_discardVolumes (s := s.drop .container) hmappings) fun r s' hr => ?_
    obtain ⟨hsame, hgoes, hstays⟩ := hr
    have haway : TurnedAway env ids s s' :=
      { mappings := hsame.mappings.trans hmappings
        cinder := hsame.cinder
        allocations := hsame.allocations
        dropped := fun _ => hsame.records.trans hdropped
        kept := fun hno => by rw [hpasses] at hno; cases hno
        goes := fun _ => hgoes
        stays := hstays }
    cases r with
    | ok _ => exact ⟨nofun, haway⟩
    | raise _ => exact ⟨nofun, haway⟩
    | halt => exact ⟨nofun, haway⟩
  · intro hno
    rw [hhas] at hno
    cases hno
  · intro hno e
    refine ⟨nofun, ?_⟩
    exact
      { mappings := hmappings
        cinder := rfl
        allocations := rfl
        dropped := fun hpasses => by rw [hno] at hpasses; cases hpasses
        kept := fun _ => ⟨rfl, rfl⟩
        goes := fun hpasses => by rw [hno] at hpasses; cases hpasses
        stays := fun _ hi _ => hi }

/-- The records may have another status. -/
structure Marked (s s' : World) : Prop where
  volumes : s'.volumes = s.volumes
  mappings : s'.mappings = s.mappings
  cinder : s'.cinder = s.cinder
  allocations : s'.allocations = s.allocations
  records : s'.records.map (·.key) = s.records.map (·.key)

theorem marked_refl (s : World) : Marked s s := ⟨rfl, rfl, rfl, rfl, rfl⟩

theorem wp_saveStatus {k : Key} {reason : String} {α : Type} {g : Unit → Prog World Error α}
    {Q : Result Error α → World → Prop} (hok : ∀ s', Marked s s' → wp (g ()) Q s')
    (hraise : ∀ e, Q (.raise e) s) : wp (saveStatus env k reason >>= g) Q s := by
  apply wp_call_bind
  · intro _
    apply hok
    refine ⟨rfl, rfl, rfl, rfl, ?_⟩
    simp only [List.map_map]
    apply List.map_congr_left
    intro r _
    dsimp only [Function.comp_apply]
    split
    · rfl
    · rfl
  · intro _
    exact hraise

theorem wp_schedule {k : Key} {Q : Result Error Bool → World → Prop}
    (hok : env.passes .selectDestinations = true →
      Q (.ok true) { s with allocations := k :: s.allocations })
    (hlate : env.passes .selectDestinations = false → ∀ s', Marked s s' → Q (.ok false) s')
    (hraise : env.passes .selectDestinations = false → ∀ e s', Marked s s' → Q (.raise e) s') :
    wp (schedule env k) Q s := by
  unfold schedule
  rw [wp_tryExcept]
  apply wp_call_bind
  · exact hok
  · intro hfails e
    rw [exceptPost_raise, wp_ite]
    split
    · apply wp_saveStatus
      · exact hlate hfails
      · exact fun e => hraise hfails e s (marked_refl s)
    · apply wp_saveStatus
      · exact hraise hfails e
      · exact fun e => hraise hfails e s (marked_refl s)

theorem within_call_id (c : Call) : Within Eq (call env c id) := by
  intro s
  show wp (call env c id) (fun _ s' => s = s') s
  apply wp_call
  · exact fun _ => rfl
  · exact fun _ _ => rfl

theorem within_validateImage : Within Eq (validateImage env) := by
  apply Within.onlyIf
  apply Within.tryExcept
  · apply (within_call_id .imageSearch).bind
    intro _
    apply within_ite
    · exact within_raise _
    · apply within_ite
      · exact within_raise _
      · exact within_ret _
  · intro e
    apply within_ite
    · exact within_raise _
    · exact within_ret _

/-- A container whose host is known, or that names none, keeps its record and its volumes, and has
an allocation once the scheduler has answered. -/
structure Scheduled (env : Env) (host : String) (s s' : World) : Prop where
  volumes : s'.volumes = s.volumes
  mappings : s'.mappings = s.mappings
  cinder : s'.cinder = s.cinder
  records : s'.records.map (·.key) = s.records.map (·.key)
  allocations : unscheduled env host = true → s'.allocations = s.allocations
  allocated : unscheduled env host = false → s'.allocations ≠ []

theorem Marked.scheduled {host : String} {s' : World} (h : Marked s s')
    (hno : unscheduled env host = true) : Scheduled env host s s' where
  volumes := h.volumes
  mappings := h.mappings
  cinder := h.cinder
  records := h.records
  allocations := fun _ => h.allocations
  allocated := fun hyes => by rw [hno] at hyes; cases hyes

theorem wp_containerCreate (k : Key) {host : String} (ids : List Nat)
    (hknown : hostUnknown env host = false) :
    wp (containerCreate env k host ids) (fun _ s' => Scheduled env host s s') s := by
  have hrest : host = "" ∨ env.passes .getComputeNode = true →
      wp (do
        if (← schedule env k) = true then do
          validateImage env
          call env .actionStart id
          call env .rpcCreate id
        else ret ()) (fun _ s' => Scheduled env host s s') s := by
    intro hhost
    have hun : unscheduled env host = !env.passes .selectDestinations := by
      rcases hhost with rfl | hhost
      · simp [unscheduled]
      · simp [unscheduled, hhost]
    rw [wp_bind]
    apply wp_schedule
    · intro hpasses
      have hwithin : Within Eq (do
          validateImage env
          call env .actionStart id
          call env .rpcCreate id) :=
        within_validateImage.bind fun _ =>
          (within_call_id .actionStart).bind fun _ => within_call_id .rpcCreate
      rw [seqPost_ok, if_pos rfl]
      refine wp_mono (hwithin.wp _) fun _ s' hs => ?_
      subst hs
      refine ⟨rfl, rfl, rfl, rfl, ?_, fun _ => List.cons_ne_nil _ _⟩
      rw [hun, hpasses]
      exact nofun
    · intro hfails s' hs
      exact hs.scheduled (by rw [hun, hfails]; rfl)
    · intro hfails e s' hs
      exact hs.scheduled (by rw [hun, hfails]; rfl)
  unfold containerCreate onlyIf
  rw [wp_bind]
  split
  case isFalse hhost =>
    rw [wp_ret, seqPost_ok]
    exact hrest (.inl (not_not.mp hhost))
  case isTrue hhost =>
    unfold validateHost
    rw [wp_tryExcept]
    cases hfails : env.fails .getComputeNode with
    | none =>
      have hpasses : env.passes .getComputeNode = true := by simp [Env.passes, hfails]
      apply wp_of_run (call_of_passes hpasses)
      exact hrest (.inr hpasses)
    | some e =>
      have hcall : call env .getComputeNode id s = (.raise e, s) := by simp [call, hfails]
      have he : e ≠ .computeNodeNotFound := by
        rintro rfl
        simp [hostUnknown, hfails] at hknown
        exact hhost hknown
      have hun : unscheduled env host = true := by
        simp [unscheduled, Env.passes, hfails, hhost]
      apply wp_of_run hcall
      rw [exceptPost_raise, if_neg he]
      exact (marked_refl s).scheduled hun

/-- The part of a container's create that its handler watches over. -/
def createContainer (env : Env) (mounts : List Mount) (host : String) : Prog World Error Unit := do
  let volumes ← buildRequestedVolumes env 0 mounts
  containerCreate env .container host volumes

/-- An unknown host, once the volumes are there. -/
theorem wp_containerCreate_unknown {host : String} (ids : List Nat) {r0 : Row}
    (hunknown : hostUnknown env host = true)
    (hrecords : s.records = [r0]) (hkey : r0.key = .container) (hmappings : s.mappings = []) :
    wp (containerCreate env .container host ids)
      (fun r s' => r ≠ .ok () ∧ TurnedAway env ids s s') s := by
  simp only [hostUnknown, Bool.and_eq_true, decide_eq_true_eq] at hunknown
  unfold containerCreate onlyIf
  rw [wp_bind, if_pos hunknown.1]
  refine wp_mono (wp_validateHost hunknown.2 hrecords hkey hmappings) fun r s' hr => ?_
  cases r with
  | ok _ => exact (hr.1 rfl).elim
  | raise e => exact ⟨nofun, hr.2⟩
  | halt => exact ⟨nofun, hr.2⟩

theorem unscheduled_of_hostUnknown {host : String} (h : hostUnknown env host = true) :
    unscheduled env host = true := by
  simp only [hostUnknown, Bool.and_eq_true, decide_eq_true_eq] at h
  simp [unscheduled, Env.passes, h.1, h.2]

/-- What the handler finds of a refused create. -/
structure Found (env : Env) (mounts : List Mount) (host : String) (s : World) : Prop where
  bare : Bare s ↔ bareRefusal env mounts host
  records : Bare s → s.records = [] ∧ turnedAway env mounts host ∨
    s.records.map (·.key) = [.container] ∧ ¬ turnedAway env mounts host

variable {mounts : List Mount} {host : String} {r0 : Row}

/-- No mounts: what `container_create` leaves. -/
theorem found_of_none {e : Error} {s' : World} (hkey : r0.key = .container)
    (h : containerCreate env .container host [] { records := [r0] } = (.raise e, s')) :
    Found env [] host s' := by
  cases hknown : hostUnknown env host with
  | true =>
    have hun := unscheduled_of_hostUnknown hknown
    have hwp := wp_containerCreate_unknown (s := { records := [r0] }) [] hknown rfl hkey rfl
    unfold wp at hwp
    rw [h] at hwp
    obtain ⟨-, haway⟩ := hwp
    have hvolumes : s'.volumes = [] := by
      cases hdrop : env.passes (.destroyRecord .container false) with
      | true =>
        apply List.eq_nil_iff_forall_not_mem.mpr
        intro i hi
        have hin := (haway.goes hdrop (by simp) i hi).1
        cases hin
      | false => exact (haway.kept hdrop).2
    have hbare : Bare s' := ⟨hvolumes, haway.mappings, haway.cinder, haway.allocations⟩
    constructor
    · exact ⟨fun _ => hun, fun _ => hbare⟩
    · intro _
      cases hdrop : env.passes (.destroyRecord .container false) with
      | true => exact .inl ⟨haway.dropped hdrop, .inl rfl, hknown, hdrop⟩
      | false =>
        right
        rw [(haway.kept hdrop).1]
        refine ⟨by simp [hkey], ?_⟩
        rintro ⟨-, -, hyes⟩
        rw [hdrop] at hyes
        cases hyes
  | false =>
    have hwp := wp_containerCreate (s := { records := [r0] }) .container [] hknown
    unfold wp at hwp
    rw [h] at hwp
    constructor
    · constructor
      · intro hbare
        cases hun : unscheduled env host with
        | true => exact hun
        | false => exact (hwp.allocated hun hbare.allocations).elim
      · intro hun
        exact ⟨hwp.volumes, hwp.mappings, hwp.cinder, hwp.allocations hun⟩
    · intro _
      right
      refine ⟨by rw [hwp.records]; simp [hkey], ?_⟩
      rintro ⟨-, hyes, -⟩
      rw [hknown] at hyes
      cases hyes

/-- Mounts that all have their rows: what `container_create` leaves. -/
theorem found_of_allFound {e : Error} {s' : World} {ids : List Nat} {m : Mount} {ms : List Mount}
    (hkey : r0.key = .container) (hall : allFound env 0 (m :: ms) = true)
    (hids : ids = List.range' 0 (m :: ms).length)
    (h : containerCreate env .container host ids { records := [r0], volumes := ids.reverse } =
      (.raise e, s')) :
    Found env (m :: ms) host s' := by
  have hbuilt : m.built env 0 = true := by
    simp only [allFound, Bool.and_eq_true] at hall
    exact hall.1.1
  have hbareRefusal : bareRefusal env (m :: ms) host ↔ hostUnknown env host = true ∧
      env.passes (.destroyRecord .container false) = true ∧ ∀ i ∈ ids, discards env i = true := by
    simp [bareRefusal, hbuilt, hall, hids, List.mem_range']
  have hsome : ids.reverse ≠ [] := by simp [hids, List.range'_succ]
  cases hknown : hostUnknown env host with
  | true =>
    have hwp := wp_containerCreate_unknown (s := { records := [r0], volumes := ids.reverse })
      ids hknown rfl hkey rfl
    unfold wp at hwp
    rw [h] at hwp
    obtain ⟨-, haway⟩ := hwp
    constructor
    · rw [hbareRefusal]
      constructor
      · intro hbare
        have hdrop : env.passes (.destroyRecord .container false) = true := by
          cases hdrop : env.passes (.destroyRecord .container false) with
          | true => rfl
          | false =>
            have hsame : s'.volumes = ids.reverse := (haway.kept hdrop).2
            rw [hbare.volumes] at hsame
            exact (hsome hsame.symm).elim
        refine ⟨hknown, hdrop, fun i hi => ?_⟩
        cases hi' : discards env i with
        | true => rfl
        | false =>
          have hmem := haway.stays i (List.mem_reverse.mpr hi) hi'
          rw [hbare.volumes] at hmem
          cases hmem
      · rintro ⟨-, hdrop, hids'⟩
        refine ⟨?_, haway.mappings, haway.cinder, haway.allocations⟩
        apply List.eq_nil_iff_forall_not_mem.mpr
        intro i hi
        obtain ⟨hin, hout⟩ := haway.goes hdrop hids' i hi
        exact hout (List.mem_reverse.mp hin)
    · intro _
      cases hdrop : env.passes (.destroyRecord .container false) with
      | true => exact .inl ⟨haway.dropped hdrop, .inr hall, hknown, hdrop⟩
      | false =>
        right
        rw [(haway.kept hdrop).1]
        refine ⟨by simp [hkey], ?_⟩
        rintro ⟨-, -, hyes⟩
        rw [hdrop] at hyes
        cases hyes
  | false =>
    have hwp := wp_containerCreate (s := { records := [r0], volumes := ids.reverse })
      .container ids hknown
    unfold wp at hwp
    rw [h] at hwp
    constructor
    · rw [hbareRefusal, hknown]
      constructor
      · intro hbare
        have hsame : s'.volumes = ids.reverse := hwp.volumes
        rw [hbare.volumes] at hsame
        exact (hsome hsame.symm).elim
      · exact fun hno => absurd hno.1 Bool.false_ne_true
    · intro _
      right
      refine ⟨by rw [hwp.records]; simp [hkey], ?_⟩
      rintro ⟨-, hyes, -⟩
      rw [hknown] at hyes
      cases hyes

/-- A mount that is refused before anything is made for it. -/
theorem run_buildRequestedVolumes_of_bare {i : Nat} {m : Mount} (ms : List Mount)
    (hbuilt : m.built env i = false) (hmade : m.makesCinder env i = false) :
    ∃ e, buildRequestedVolumes env i (m :: ms) s = (.raise e, s) := by
  have h : wp (buildRequestedVolumes env i (m :: ms)) (fun r s' => (∃ e, r = .raise e) ∧ s' = s)
      s := by
    rw [buildRequestedVolumes, wp_bind]
    apply wp_buildVolume
    · intro hyes
      rw [hbuilt] at hyes
      cases hyes
    · intro _ e
      exact ⟨⟨e, rfl⟩, by rw [hmade, making_false]⟩
  obtain ⟨⟨e, hr⟩, hs⟩ := h
  exact ⟨e, Prod.ext hr hs⟩

/-- What is at Cinder is not deleted by `container_create`. -/
theorem cinder_containerCreate {ids : List Nat} (hrecords : s.records = [r0])
    (hkey : r0.key = .container) (hmappings : s.mappings = []) :
    wp (containerCreate env .container host ids) (fun _ s' => s'.cinder = s.cinder) s := by
  cases hknown : hostUnknown env host with
  | true =>
    refine wp_mono (wp_containerCreate_unknown ids hknown hrecords hkey hmappings) fun _ s' h => ?_
    exact h.2.cinder
  | false =>
    refine wp_mono (wp_containerCreate .container ids hknown) fun _ s' h => ?_
    exact h.cinder

/-- A mount for which something is made, and not all have their rows: it is still there. -/
theorem left_of_made (host : String) {m : Mount} {ms : List Mount} (hkey : r0.key = .container)
    (hall : allFound env 0 (m :: ms) = false)
    (hmade : m.built env 0 = true ∨ m.makesCinder env 0 = true) :
    wp (createContainer env (m :: ms) host) (fun _ s' => ¬ Bare s') { records := [r0] } := by
  unfold createContainer
  rw [wp_bind]
  have hgrows := (within_buildRequestedVolumes env (m :: ms) 0).wp { records := [r0] }
  have hwp := wp_and hgrows (wp_and (remains_buildRequestedVolumes 0 m ms)
    (returns_buildRequestedVolumes (m :: ms) 0))
  refine wp_mono hwp fun r s' hr => ?_
  obtain ⟨hgrows, hremains, hreturns⟩ := hr
  have hthere := hremains hmade
  cases r with
  | ok ids =>
    have hcinder : s'.cinder ≠ [] := by
      intro hnone
      rw [hreturns ⟨ids, rfl⟩ hnone] at hall
      cases hall
    rw [seqPost_ok]
    refine wp_mono (cinder_containerCreate hgrows.records hkey hgrows.mappings) fun _ t ht hbare => ?_
    rw [hbare.cinder] at ht
    exact hcinder ht.symm
  | raise e => exact fun hbare => hthere.elim (· hbare.volumes) (· hbare.cinder)
  | halt => exact fun hbare => hthere.elim (· hbare.volumes) (· hbare.cinder)

/-- What the handler of a container's create finds. -/
theorem found_of_refused {e : Error} {s' : World} (hkey : r0.key = .container)
    (h : createContainer env mounts host { records := [r0] } = (.raise e, s')) :
    Found env mounts host s' := by
  cases mounts with
  | nil => exact found_of_none hkey h
  | cons m ms =>
    cases hall : allFound env 0 (m :: ms) with
    | true =>
      have hrun := run_buildRequestedVolumes (s := { records := [r0] }) hall
      apply found_of_allFound hkey hall rfl
      simp only [createContainer, bind, andThen, hrun, List.append_nil] at h
      exact h
    | false =>
      by_cases hmade : m.built env 0 = true ∨ m.makesCinder env 0 = true
      · have hleft := left_of_made host hkey hall hmade
        unfold wp at hleft
        rw [h] at hleft
        constructor
        · constructor
          · exact fun hbare => (hleft hbare).elim
          · rintro (⟨hbuilt, hcinder⟩ | ⟨hyes, -⟩)
            · rw [hbuilt, hcinder] at hmade
              simp at hmade
            · rw [hall] at hyes
              cases hyes
        · exact fun hbare => (hleft hbare).elim
      · simp only [not_or, Bool.not_eq_true] at hmade
        obtain ⟨e', hrun⟩ := run_buildRequestedVolumes_of_bare (s := { records := [r0] }) ms
          hmade.1 hmade.2
        simp only [createContainer, bind, andThen, hrun, Prod.mk.injEq] at h
        obtain ⟨-, rfl⟩ := h
        constructor
        · exact ⟨fun _ => .inl hmade, fun _ => ⟨rfl, rfl, rfl, rfl⟩⟩
        · intro _
          right
          refine ⟨by simp [hkey], ?_⟩
          rintro ⟨hno | hyes, -⟩
          · cases hno
          · rw [hall] at hyes
            cases hyes

/-- The handler takes the record back, and nothing else. -/
theorem wp_handler : wp (swallow (destroyRecord env .container true))
    (fun r s' => r = .ok () ∧ (Bare s' ↔ Bare s) ∧ (s.records = [] → s'.records = []) ∧
      (s.records.map (·.key) = [.container] →
        (s'.records = [] ↔ env.passes (.destroyRecord .container true) = true))) s := by
  rw [wp_swallow]
  apply wp_destroyRecord
  · intro hpasses _
    refine ⟨rfl, ⟨fun h => ⟨h.1, h.2, h.3, h.4⟩, fun h => ⟨h.1, h.2, h.3, h.4⟩⟩, ?_, ?_⟩
    · intro hnone
      simp [World.drop, hnone]
    · intro hone
      obtain ⟨r, hr, hkey⟩ := List.map_eq_singleton_iff.mp hone
      simp [World.drop, hr, hkey, hpasses]
  · intro hno
    rw [exceptPost_raise, wp_ret]
    refine ⟨rfl, Iff.rfl, id, ?_⟩
    intro hone
    obtain ⟨r, hr, hkey⟩ := List.map_eq_singleton_iff.mp hone
    simp [World.has, hr, hkey] at hno
  · intro hno e
    rw [exceptPost_raise, wp_ret]
    refine ⟨rfl, Iff.rfl, id, ?_⟩
    intro hone
    obtain ⟨r, hr, hkey⟩ := List.map_eq_singleton_iff.mp hone
    simp [hr, hno]

/-- A refused container leaves nothing just when the condition holds. -/
theorem nothing_container_iff (env : Env) (mounts : List Mount) (host : String) :
    wp (postContainer env mounts host)
      (fun r s' => (∃ e, r = .raise e) → (Nothing s' ↔ containerClean env mounts host)) {} := by
  unfold postContainer createRecord containerClean
  apply wp_call_bind
  · intro hcreate
    rw [wp_reraising]
    show wp (createContainer env mounts host) _ { records := [containerRow .creating none] }
    cases hbody : createContainer env mounts host { records := [containerRow .creating none] } with
    | mk r s' =>
    apply wp_of_run hbody
    cases r with
    | ok _ =>
      rintro ⟨e, he⟩
      cases he
    | halt =>
      rintro ⟨e, he⟩
      cases he
    | raise e =>
      have hfound := found_of_refused rfl hbody
      rw [exceptPost_raise, wp_andThen]
      refine wp_mono wp_handler fun r t ht => ?_
      obtain ⟨rfl, hbare, hgone, hone⟩ := ht
      rw [seqPost_ok, wp_raise]
      intro _
      rw [nothing_iff, hbare, hfound.bare, hcreate]
      constructor
      · rintro ⟨hnone, href⟩
        right
        refine ⟨href, ?_⟩
        rcases hfound.records (hfound.bare.mpr href) with ⟨-, haway⟩ | ⟨hrow, -⟩
        · exact .inl haway
        · exact .inr ((hone hrow).mp hnone)
      · rintro (hno | ⟨href, hrecord⟩)
        · cases hno
        · refine ⟨?_, href⟩
          rcases hfound.records (hfound.bare.mpr href) with ⟨hnone, -⟩ | ⟨hrow, haway⟩
          · exact hgone hnone
          · exact (hone hrow).mpr (hrecord.resolve_left haway)
  · intro hcreate e _
    exact ⟨fun _ => .inl hcreate, fun _ => ⟨rfl, rfl, rfl, rfl, rfl⟩⟩

end Refusals

end Zun
