import Zun.Api.RefusedContainer

/-!
# What a refused capsule leaves

Nothing takes a capsule back but the handler around its volumes, and that leaves the volumes' rows.
-/

namespace Zun

open Effect Prog

namespace Refusals

variable {env : Env} {s : World}

/-! ## Before the volumes -/

/-- The capsule's row and those of its members. -/
def IsFamily (r : Row) : Prop :=
  r.key = .capsule ∧ r.containerType = .capsule ∧ r.capsule = none ∨
    (∃ i, r.key = .member i) ∧ r.capsule = some .capsule

/-- A capsule whose volumes have not been come to. -/
structure Early (s : World) : Prop where
  family : ∀ r ∈ s.records, IsFamily r
  capsule : s.has .capsule = true
  bare : Bare s
  created : s.created = []

theorem wp_securityGroups {Q : Result Error Unit → World → Prop} :
    ∀ {names : List String},
      ((names.all fun name => env.passes (.securityGroup name)) = true → Q (.ok ()) s) →
      ((names.all fun name => env.passes (.securityGroup name)) = false → ∀ e, Q (.raise e) s) →
      wp (forEach names fun name => call env (.securityGroup name) id) Q s
  | [], hok, _ => hok rfl
  | name :: names, hok, hno => by
    rw [forEach]
    apply wp_call_bind
    · intro hname
      apply wp_securityGroups
      · intro hall
        exact hok (by simp only [List.all_cons, hname, hall]; rfl)
      · intro hall
        exact hno (by simp only [List.all_cons, hname, hall]; rfl)
    · intro hname
      exact hno (by simp only [List.all_cons, hname]; rfl)

theorem wp_checkArchitecture {arch : String} {Q : Result Error Unit → World → Prop}
    (hok : (arch = "" || (archTrait arch).isSome) = true → Q (.ok ()) s)
    (hno : (arch = "" || (archTrait arch).isSome) = false → ∀ e, Q (.raise e) s) :
    wp (checkArchitecture arch) Q s := by
  unfold checkArchitecture
  split
  case isTrue h => exact hok (by simpa using h)
  case isFalse h => exact hno (by simpa using h) _

theorem Early.member {i : Nat} {r : Row} (h : Early s) (hkey : r.key = .member i)
    (hcapsule : r.capsule = some .capsule) : Early { s with records := r :: s.records } where
  family r' hr' := by
    rcases List.mem_cons.mp hr' with rfl | hr'
    · exact .inr ⟨⟨i, hkey⟩, hcapsule⟩
    · exact h.family r' hr'
  capsule := by
    have hcapsule := h.capsule
    simp only [World.has, List.any_cons, Bool.or_eq_true] at hcapsule ⊢
    exact .inr hcapsule
  bare := ⟨h.bare.volumes, h.bare.mappings, h.bare.cinder, h.bare.allocations⟩
  created := h.created

theorem wp_createMembers {Q : Result Error Unit → World → Prop} :
    ∀ {ms : List Member} {i : Nat} {s : World}, Early s →
      (∀ s', Early s' → allMade env i ms = true → Q (.ok ()) s') →
      (∀ s', Early s' → allMade env i ms = false → ∀ e, Q (.raise e) s') →
      wp (createMembers env i ms) Q s
  | [], _, s, h, hok, _ => hok s h rfl
  | m :: ms, i, s, h, hok, hno => by
    rw [createMembers, wp_bind]
    unfold createMember
    cases href : m.securityContext.bind (·.refusal env) with
    | some e =>
      exact hno s h (by simp [allMade, Member.made, href]) e
    | none =>
      apply wp_call
      · intro hrow
        rw [seqPost_ok]
        have hmade : m.made env i = true := by simp [Member.made, href, hrow]
        apply wp_createMembers (h.member rfl rfl)
        · intro s' hs' hall
          exact hok s' hs' (by simp [allMade, hmade, hall])
        · intro s' hs' hall
          exact hno s' hs' (by simp [allMade, hall])
      · intro hrow
        exact hno s h (by simp [allMade, Member.made, hrow])

/-! ### A capsule's volumes -/

/-- What is made for a capsule's volume before its row. -/
def World.sourced (s : World) (i : Nat) (b : Bool) : World :=
  if b = true then { s with cinder := i :: s.cinder, created := i :: s.created } else s

/-- A volume is made at Cinder for it. -/
def Source.makesCinder (env : Env) (i : Nat) (v : Source) : Bool :=
  v = .size && env.passes (.createCinder i)

theorem wp_findVolume {i : Nat} {v : Source} {Q : Result Error Unit → World → Prop}
    (hok : v.found env i = true → Q (.ok ()) (s.sourced i (v.makesCinder env i)))
    (hno : v.found env i = false → ∀ e, Q (.raise e) s) :
    wp (findVolume env i v) Q s := by
  unfold findVolume
  cases v with
  | volumeId =>
    apply wp_call_bind
    · intro hsearch
      apply wp_call
      · intro husable
        exact hok (by simp only [Source.found, hsearch, husable]; rfl)
      · intro husable
        exact hno (by simp only [Source.found, hsearch, husable]; rfl)
    · intro hsearch
      exact hno (by simp only [Source.found, hsearch]; rfl)
  | size =>
    apply wp_call_bind
    · intro hmade
      have hok := hok hmade
      simpa [World.sourced, Source.makesCinder, hmade] using hok
    · intro hmade
      exact hno hmade
  | file => exact hok rfl
  | nfs => exact hok rfl
  | emptyDir => exact hok rfl

theorem grows_sourced (s : World) (i : Nat) (b : Bool) : Grows s (s.sourced i b) := by
  cases b with
  | false => exact refl_of Grows s
  | true => exact ⟨fun _ h => h, fun _ h => List.mem_cons_of_mem _ h, rfl, rfl, rfl⟩

theorem within_findVolume (i : Nat) (v : Source) : Within Grows (findVolume env i v) := by
  intro s
  show wp (findVolume env i v) (fun _ s' => Grows s s') s
  apply wp_findVolume
  · exact fun _ => grows_sourced ..
  · exact fun _ _ => refl_of Grows s

theorem within_createVolume (i : Nat) : Within Grows (createVolume env i) := by
  intro s
  show wp (createVolume env i) (fun _ s' => Grows s s') s
  apply wp_call
  · exact fun _ => (refl_of Grows s).row i
  · exact fun _ _ => refl_of Grows s

theorem within_buildVolumes {mounts : List (String × String)} :
    ∀ (vs : List Volume) (i : Nat), Within Grows (buildVolumes env mounts i vs)
  | [], _ => within_ret _
  | v :: vs, i => by
    apply (within_findVolume i v.source).bind
    intro _
    apply (within_createVolume i).bind
    intro _
    apply within_ite
    · exact within_buildVolumes vs (i + 1)
    · exact within_raise _

/-- The first volume: its row is there in the end, or it was refused before. -/
theorem wp_buildVolumes {mounts : List (String × String)} {i : Nat} {v : Volume} {vs : List Volume}
    {Q : Result Error Unit → World → Prop}
    (hrow : (v.source.found env i && env.passes (.createVolume i)) = true →
      ∀ r s', s'.volumes ≠ [] → Grows s s' → Q r s')
    (hno : (v.source.found env i && env.passes (.createVolume i)) = false →
      ∀ e, Q (.raise e) (s.sourced i (v.source.makesCinder env i))) :
    wp (buildVolumes env mounts i (v :: vs)) Q s := by
  rw [buildVolumes, wp_bind]
  apply wp_findVolume
  · intro hfound
    rw [seqPost_ok]
    apply wp_call_bind
    · intro hmade
      have hwithin : Within Grows
          (if mounted mounts v = true then buildVolumes env mounts (i + 1) vs
            else raise (.invalid "volume mount parameters is invalid.")) :=
        within_ite (within_buildVolumes vs (i + 1)) (within_raise _)
      have hbefore := (grows_sourced s i (v.source.makesCinder env i)).row i
      refine wp_mono (hwithin.wp _) fun r s' hs => ?_
      apply hrow (by simp only [hfound, hmade]; rfl)
      · exact List.ne_nil_of_mem (hs.volumes (List.mem_cons_self ..))
      · exact trans_of Grows hbefore hs
    · intro hmade
      exact hno (by simp only [hmade, Bool.and_false])
  · intro hfound e
    have hsame : s.sourced i (v.source.makesCinder env i) = s := by
      cases hv : v.source with
      | size =>
        rw [hv] at hfound
        simp only [Source.found] at hfound
        simp [Source.makesCinder, hfound, World.sourced]
      | volumeId => rfl
      | file => rfl
      | nfs => rfl
      | emptyDir => rfl
    have hno := hno (by simp only [hfound, Bool.false_and]) e
    rwa [hsame] at hno

/-! ### The capsule's handler -/

/-- The members go, and what is at Cinder. -/
structure Dropping (s s' : World) : Prop where
  volumes : s'.volumes = s.volumes
  mappings : s'.mappings = s.mappings
  allocations : s'.allocations = s.allocations
  records : ∀ r ∈ s'.records, r ∈ s.records
  capsule : s'.has .capsule = s.has .capsule

instance : IsPreorder World Dropping where
  refl _ := ⟨rfl, rfl, rfl, fun _ h => h, rfl⟩
  trans _ _ _ h h' :=
    ⟨h'.volumes.trans h.volumes, h'.mappings.trans h.mappings, h'.allocations.trans h.allocations,
      fun r hr => h.records r (h'.records r hr), h'.capsule.trans h.capsule⟩

theorem wp_deleteCinders :
    ∀ {ids : List Nat} {s : World},
      wp (forEach ids fun i => swallow (deleteCinder env i))
        (fun r s' => r = .ok () ∧ s'.records = s.records ∧ Dropping s s' ∧
          ∀ i, i ∈ s'.cinder ↔
            i ∈ s.cinder ∧ (i ∈ ids → env.passes (.deleteCinder i) = false)) s
  | [], s => ⟨rfl, rfl, refl_of Dropping s,
      fun _ => ⟨fun hi => ⟨hi, fun hno => (List.not_mem_nil hno).elim⟩, And.left⟩⟩
  | j :: ids, s => by
    rw [forEach, wp_andThen, wp_swallow]
    apply wp_call
    · intro hpasses
      rw [exceptPost_ok, seqPost_ok]
      refine wp_mono wp_deleteCinders fun r s' hr => ?_
      obtain ⟨hok, hrecords, hdrop, hcinder⟩ := hr
      refine ⟨hok, hrecords, ⟨hdrop.1, hdrop.2, hdrop.3, hdrop.4, hdrop.5⟩, fun i => ?_⟩
      rw [hcinder]
      by_cases hi : i = j
      · subst hi
        simp [hpasses]
      · simp [hi]
    · intro hfails e
      rw [exceptPost_raise, wp_ret, seqPost_ok]
      refine wp_mono wp_deleteCinders fun r s' hr => ?_
      obtain ⟨hok, hrecords, hdrop, hcinder⟩ := hr
      refine ⟨hok, hrecords, hdrop, fun i => ?_⟩
      rw [hcinder]
      by_cases hi : i = j
      · subst hi
        simp [hfails]
      · simp [hi]

theorem has_iff {k : Key} : s.has k = true ↔ ∃ r ∈ s.records, r.key = k := by
  simp [World.has]

/-- A member's row goes without the capsule's. -/
theorem dropping_drop {k : Key} (hfamily : ∀ r ∈ s.records, IsFamily r) (hk : k ≠ .capsule) :
    Dropping s (s.drop k) where
  volumes := rfl
  mappings := rfl
  allocations := rfl
  records r hr := (List.mem_filter.mp hr).1
  capsule := by
    rw [Bool.eq_iff_iff, has_iff, has_iff]
    constructor
    · rintro ⟨r, hr, hkey⟩
      exact ⟨r, (List.mem_filter.mp hr).1, hkey⟩
    · rintro ⟨r, hr, hkey⟩
      refine ⟨r, List.mem_filter.mpr ⟨hr, ?_⟩, hkey⟩
      have hnone : r.capsule = none := by
        rcases hfamily r hr with ⟨-, -, hnone⟩ | ⟨⟨i, hi⟩, -⟩
        · exact hnone
        · rw [hi] at hkey
          cases hkey
      simp [hkey, hnone, Ne.symm hk]

theorem wp_dropMembers :
    ∀ {ks : List Key} {s : World}, (∀ k ∈ ks, k ≠ .capsule) → (∀ r ∈ s.records, IsFamily r) →
      wp (forEach ks fun k => swallow (destroyRecord env k true))
        (fun r s' => r = .ok () ∧ s'.cinder = s.cinder ∧ Dropping s s') s
  | [], s, _, _ => ⟨rfl, rfl, refl_of Dropping s⟩
  | k :: ks, s, hks, hfamily => by
    have hrest : ∀ k ∈ ks, k ≠ .capsule := fun k hk => hks k (List.mem_cons_of_mem _ hk)
    rw [forEach, wp_andThen, wp_swallow]
    apply wp_destroyRecord
    · intro _ _
      have hdrop := dropping_drop hfamily (hks k (List.mem_cons_self ..))
      have hfamily' : ∀ r ∈ (s.drop k).records, IsFamily r :=
        fun r hr => hfamily r (hdrop.records r hr)
      rw [exceptPost_ok, seqPost_ok]
      refine wp_mono (wp_dropMembers hrest hfamily') fun r s' hr => ?_
      exact ⟨hr.1, hr.2.1, trans_of Dropping hdrop hr.2.2⟩
    · intro _
      exact wp_dropMembers hrest hfamily
    · intro _ e
      exact wp_dropMembers hrest hfamily

/-- What the capsule's handler leaves: the volumes' rows, what will not be deleted at Cinder, and
the records unless the capsule's own goes. -/
structure Dropped (env : Env) (s s' : World) : Prop where
  volumes : s'.volumes = s.volumes
  mappings : s'.mappings = s.mappings
  allocations : s'.allocations = s.allocations
  cinder : ∀ i, i ∈ s'.cinder ↔
    i ∈ s.cinder ∧ (i ∈ s.created → env.passes (.deleteCinder i) = false)
  gone : env.passes .loadMembers = true → env.passes (.destroyRecord .capsule true) = true →
    s'.records = []
  stays : s'.has .capsule = false →
    env.passes .loadMembers = true ∧ env.passes (.destroyRecord .capsule true) = true

theorem wp_dropCapsule (hfamily : ∀ r ∈ s.records, IsFamily r) (hcapsule : s.has .capsule = true) :
    wp (dropCapsule env) (fun _ s' => Dropped env s s') s := by
  unfold dropCapsule
  rw [wp_bind, wp_read, seqPost_ok, wp_bind]
  refine wp_mono wp_deleteCinders fun r t ht => ?_
  obtain ⟨rfl, hrecords, hdrop, hcinder⟩ := ht
  rw [seqPost_ok]
  have ht : t.has .capsule = true := hdrop.capsule.trans hcapsule
  apply wp_call_bind
  · intro hload
    rw [wp_bind, wp_read, seqPost_ok, wp_bind]
    have hfamily' : ∀ r ∈ t.records, IsFamily r := fun r hr => hfamily r (hdrop.records r hr)
    have hmembers : ∀ k ∈ (id t).containers, k ≠ .capsule := by
      intro k hk
      simp only [World.containers, List.mem_map, List.mem_filter, id, decide_eq_true_eq] at hk
      obtain ⟨r, ⟨hr, htype⟩, rfl⟩ := hk
      rcases hfamily' r hr with ⟨-, hcapsule, -⟩ | ⟨⟨i, hi⟩, -⟩
      · rw [hcapsule] at htype
        cases htype
      · rw [hi]
        exact nofun
    refine wp_mono (wp_dropMembers hmembers hfamily') fun r u hu => ?_
    obtain ⟨rfl, hcinder', hdrop'⟩ := hu
    rw [seqPost_ok]
    have hdropping : Dropping s u := trans_of Dropping hdrop hdrop'
    have hcinder'' : ∀ i, i ∈ u.cinder ↔
        i ∈ s.cinder ∧ (i ∈ s.created → env.passes (.deleteCinder i) = false) := by
      intro i
      rw [show u.cinder = t.cinder from hcinder']
      exact hcinder i
    have hu : u.has .capsule = true := hdropping.capsule.trans hcapsule
    apply wp_destroyRecord
    · intro hpasses _
      refine ⟨hdropping.1, hdropping.2, hdropping.3, hcinder'', fun _ _ => ?_, fun _ => ⟨hload, hpasses⟩⟩
      show u.records.filter _ = []
      rw [List.filter_eq_nil_iff]
      intro r hr
      rcases hfamily r (hdropping.records r hr) with ⟨hkey, -⟩ | ⟨-, hcapsule⟩
      · simp [hkey]
      · simp [hcapsule]
    · intro hno
      rw [hu] at hno
      cases hno
    · intro hfails e
      refine ⟨hdropping.1, hdropping.2, hdropping.3, hcinder'', fun _ hyes => ?_, fun hno => ?_⟩
      · rw [hfails] at hyes
        cases hyes
      · rw [hu] at hno
        cases hno
  · intro hload e
    refine ⟨hdrop.1, hdrop.2, hdrop.3, hcinder, fun hyes => ?_, fun hno => ?_⟩
    · rw [hload] at hyes
      cases hyes
    · rw [ht] at hno
      cases hno

theorem not_nothing_of_has {k : Key} (h : s.has k = true) : ¬ Nothing s := by
  intro hnothing
  obtain ⟨r, hr, -⟩ := has_iff.mp h
  rw [hnothing.records] at hr
  cases hr

/-- No later step takes the capsule's record back. -/
theorem wp_createCapsule (h : s.has .capsule = true) :
    wp (do
      call env .saveResources id
      containerCreate env .capsule "" []) (fun _ s' => s'.has .capsule = true) s := by
  apply wp_call_bind
  · intro _
    have hknown : hostUnknown env "" = false := rfl
    refine wp_mono (wp_containerCreate .capsule [] hknown) fun _ s' hs => ?_
    obtain ⟨r, hr, hkey⟩ := has_iff.mp h
    have hmem : Key.capsule ∈ s'.records.map (·.key) := by
      rw [hs.records]
      exact List.mem_map.mpr ⟨r, hr, hkey⟩
    obtain ⟨r', hr', hkey'⟩ := List.mem_map.mp hmem
    exact has_iff.mpr ⟨r', hr', hkey'⟩
  · exact fun _ _ => h

/-- The handler, when the first volume was refused before its row was made. -/
theorem nothing_of_dropped {v : Source} {s' : World} (h : Early s)
    (hdrop : Dropped env (s.sourced 0 (v.makesCinder env 0)) s') :
    Nothing s' ↔
      (v = .size → env.passes (.createCinder 0) = true → env.passes (.deleteCinder 0) = true) ∧
      env.passes .loadMembers = true ∧ env.passes (.destroyRecord .capsule true) = true := by
  have hgrows := grows_sourced s 0 (v.makesCinder env 0)
  have hvolumes : (s.sourced 0 (v.makesCinder env 0)).volumes = [] := by
    cases v.makesCinder env 0 with
    | false => exact h.bare.volumes
    | true => exact h.bare.volumes
  constructor
  · intro hnothing
    have hgone : s'.has .capsule = false := by simp [World.has, hnothing.records]
    refine ⟨?_, hdrop.stays hgone⟩
    rintro rfl hmade
    cases hdelete : env.passes (.deleteCinder 0) with
    | true => rfl
    | false =>
      have hleft : 0 ∈ s'.cinder := by
        rw [hdrop.cinder]
        simp [World.sourced, Source.makesCinder, hmade, hdelete]
      rw [hnothing.cinder] at hleft
      cases hleft
  · rintro ⟨hdelete, hload, hdestroy⟩
    refine ⟨hdrop.gone hload hdestroy, hdrop.volumes.trans hvolumes, ?_, ?_, ?_⟩
    · exact hdrop.mappings.trans (hgrows.mappings.trans h.bare.mappings)
    · apply List.eq_nil_iff_forall_not_mem.mpr
      intro i hi
      obtain ⟨hthere, hkept⟩ := (hdrop.cinder i).mp hi
      cases hmade : v.makesCinder env 0 with
      | false =>
        rw [hmade] at hthere
        simp [World.sourced, h.bare.cinder] at hthere
      | true =>
        rw [hmade] at hthere hkept
        simp only [Source.makesCinder, Bool.and_eq_true, decide_eq_true_eq] at hmade
        simp only [World.sourced, reduceIte, h.bare.cinder, h.created, List.mem_singleton] at hthere hkept
        subst hthere
        have hfails := hkept rfl
        rw [hdelete hmade.1 hmade.2] at hfails
        cases hfails
    · exact hdrop.allocations.trans (hgrows.allocations.trans h.bare.allocations)

/-- The first volume of a capsule, and the rest of the request. -/
theorem nothing_of_early {c : Capsule} (h : Early s) (hcreate : env.passes (.createRecord .capsule) = true)
    (hreaches : c.reachesVolumes env = true) :
    wp (do
      reraising (buildVolumes env (c.members.flatMap (·.volumeMounts)) 0 c.volumes)
        fun _ => dropCapsule env
      call env .saveResources id
      containerCreate env .capsule "" [])
      (fun r s' => (∃ e, r = .raise e) → (Nothing s' ↔ capsuleClean env c)) s := by
  have hclean : capsuleClean env c ↔ firstRefused env c.volumes := by
    simp [capsuleClean, hcreate, hreaches]
  rw [hclean, wp_bind, wp_reraising]
  cases hvolumes : c.volumes with
  | nil =>
    rw [buildVolumes, wp_ret, exceptPost_ok, seqPost_ok]
    refine wp_mono (wp_createCapsule h.capsule) fun r s' hs _ => ?_
    exact ⟨fun hno => not_nothing_of_has hs hno, False.elim⟩
  | cons v vs =>
    apply wp_buildVolumes
    · intro hrow r s' hleft hgrows
      rw [firstRefused, hrow]
      have hcapsule : s'.has .capsule = true := by
        unfold World.has
        rw [hgrows.records]
        exact h.capsule
      cases r with
      | ok _ =>
        rw [exceptPost_ok, seqPost_ok]
        refine wp_mono (wp_createCapsule hcapsule) fun r t ht _ => ?_
        exact ⟨fun hno => (not_nothing_of_has ht hno).elim, fun hno => absurd hno.1 nofun⟩
      | halt =>
        rintro ⟨e, he⟩
        cases he
      | raise e =>
        have hfamily : ∀ r ∈ s'.records, IsFamily r := by
          rw [hgrows.records]
          exact h.family
        rw [exceptPost_raise, wp_andThen]
        refine wp_mono (wp_dropCapsule hfamily hcapsule) fun r t ht => ?_
        have hno : ¬ Nothing t := fun hno => hleft (ht.volumes.symm.trans hno.volumes)
        cases r with
        | ok _ => exact fun _ => ⟨fun hyes => (hno hyes).elim, fun hyes => absurd hyes.1 nofun⟩
        | raise _ => exact fun _ => ⟨fun hyes => (hno hyes).elim, fun hyes => absurd hyes.1 nofun⟩
        | halt => exact fun _ => ⟨fun hyes => (hno hyes).elim, fun hyes => absurd hyes.1 nofun⟩
    · intro hno e
      rw [firstRefused, hno, exceptPost_raise, wp_andThen]
      have hgrows := grows_sourced s 0 (v.source.makesCinder env 0)
      have hfamily : ∀ r ∈ (s.sourced 0 (v.source.makesCinder env 0)).records, IsFamily r := by
        rw [hgrows.records]
        exact h.family
      have hcapsule : (s.sourced 0 (v.source.makesCinder env 0)).has .capsule = true := by
        unfold World.has
        rw [hgrows.records]
        exact h.capsule
      refine wp_mono (wp_dropCapsule hfamily hcapsule) fun r t ht => ?_
      have hiff := nothing_of_dropped h ht
      cases r with
      | ok _ => exact fun _ => hiff.trans ⟨fun hyes => ⟨rfl, hyes⟩, And.right⟩
      | raise _ => exact fun _ => hiff.trans ⟨fun hyes => ⟨rfl, hyes⟩, And.right⟩
      | halt => exact fun _ => hiff.trans ⟨fun hyes => ⟨rfl, hyes⟩, And.right⟩

/-- A refused capsule leaves nothing just when the condition holds. -/
theorem nothing_capsule_iff (env : Env) (c : Capsule) :
    wp (postCapsule env c)
      (fun r s' => (∃ e, r = .raise e) → (Nothing s' ↔ capsuleClean env c)) {} := by
  unfold postCapsule createRecord
  apply wp_call_bind
  · intro hcreate
    have hearly : Early
        { records := [{ key := .capsule, containerType := .capsule }] } := by
      refine ⟨?_, rfl, ⟨rfl, rfl, rfl, rfl⟩, rfl⟩
      intro r hr
      rw [List.mem_singleton] at hr
      subst hr
      exact .inl ⟨rfl, rfl, rfl⟩
    have hno : ∀ (s' : World) (r : Result Error Unit), Early s' → c.reachesVolumes env = false →
        (∃ e, r = .raise e) → (Nothing s' ↔ capsuleClean env c) := by
      intro s' r hs' hreaches _
      constructor
      · exact fun hnothing => (not_nothing_of_has hs'.capsule hnothing).elim
      · rintro (hyes | ⟨hyes, -⟩)
        · rw [hcreate] at hyes
          cases hyes
        · rw [hreaches] at hyes
          cases hyes
    rw [wp_bind]
    apply wp_securityGroups
    · intro hgroups
      rw [seqPost_ok]
      apply wp_call_bind
      · intro hnetworks
        apply wp_call_bind
        · intro hsave
          rw [wp_bind]
          apply wp_checkArchitecture
          · intro harch
            rw [seqPost_ok, wp_bind]
            apply wp_createMembers hearly
            · intro s' hs' hmembers
              rw [seqPost_ok]
              apply nothing_of_early hs' hcreate
              simp only [Capsule.reachesVolumes, hgroups, hnetworks, hsave, harch, hmembers]
              rfl
            · intro s' hs' hmembers e
              exact hno s' _ hs' (by simp only [Capsule.reachesVolumes, hmembers, Bool.and_false])
          · intro harch e
            apply hno _ _ hearly
            simp only [Capsule.reachesVolumes, harch, Bool.and_false, Bool.false_and]
        · intro hsave e
          apply hno _ _ hearly
          simp only [Capsule.reachesVolumes, hsave, Bool.and_false, Bool.false_and]
      · intro hnetworks e
        apply hno _ _ hearly
        simp only [Capsule.reachesVolumes, hnetworks, Bool.and_false, Bool.false_and]
    · intro hgroups e
      apply hno _ _ hearly
      simp only [Capsule.reachesVolumes, hgroups, Bool.false_and]
  · intro hcreate e _
    exact ⟨fun _ => .inl hcreate, fun _ => ⟨rfl, rfl, rfl, rfl, rfl⟩⟩

/-- Of a refused request nothing is left just when it is refused where the code can take everything
back, and does. -/
theorem refused_leaves_nothing_iff (env : Env) (r : Request) (e : Error) (s : World)
    (h : post env r {} = (.raise e, s)) : Nothing s ↔ Clean env r := by
  cases r with
  | container mounts requestedHost =>
    have hwp := nothing_container_iff env mounts requestedHost
    unfold wp at hwp
    rw [show postContainer env mounts requestedHost {} = (.raise e, s) from h] at hwp
    exact hwp ⟨e, rfl⟩
  | capsule c =>
    have hwp := nothing_capsule_iff env c
    unfold wp at hwp
    rw [show postCapsule env c {} = (.raise e, s) from h] at hwp
    exact hwp ⟨e, rfl⟩

/-! ## A volume that is not found -/

/-- The second mount's volume is not found. -/
def missing : Env where
  fails c := if c = .searchVolume 1 then some .volumeNotFound else none

/-- A volume to be made, and then one that there is said to be. -/
def twoMounts : List Mount :=
  [{ size := some (.number 1), destination := "/data" },
    { source := some "backup", destination := "/backup" }]

/-- What is left of it: the row, and the volume. -/
def leftover : World := { volumes := [0], cinder := [0] }

theorem run_twoMounts :
    post missing (.container twoMounts "") {} = (.raise .volumeNotFound, leftover) := by
  decide +kernel

theorem refused_leaves_nothing_twoMounts :
    leftover.volumes ≠ [] ∧ ¬ Clean missing (.container twoMounts "") := by
  have hiff := refused_leaves_nothing_iff missing (.container twoMounts "") .volumeNotFound leftover
    run_twoMounts
  refine ⟨by decide, fun hclean => ?_⟩
  have hnone := (hiff.mpr hclean).volumes
  cases hnone

theorem not_refused_leaves_nothing :
    ¬ ∀ (env : Env) (r : Request) (e : Error) (s : World), post env r {} = (.raise e, s) → Nothing s := by
  intro h
  have hnone := (h missing (.container twoMounts "") .volumeNotFound leftover run_twoMounts).volumes
  cases hnone

end Refusals

end Zun
