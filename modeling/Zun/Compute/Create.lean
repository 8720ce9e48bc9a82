import Zun.Compute.Failing

/-!
# A create that fails

The thread of `container_create` makes many calls, and each of them can raise.  This module
follows a thread in which one call raises and decides, from that call, whether the record is
marked as failed when the thread has ended.

Four functions handle exceptions.  The wait for volumes and the attaching mark the record
themselves.  So does the pull, and so does the driver's create.  `_do_container_create` marks
it for `ResourcesUnavailable` and gives the allocation back for everything else.
What is left are the calls that no handler marks: the three questions of the disk-quota check,
which are outside every `try`, and the image name, the pull policy and the claim, which only
have the last handler above them.  `Unmarked` lists them, each with the condition under which
the thread gets there.
-/

namespace Zun

open Effect Prog World

namespace Manager

variable {env : Env} {d : Drivers} {x : Subject} {s : World} {b : Bool} {c₀ : Call} {e₀ : Exn}

/-! ## One call that raises -/

/-- Every call succeeds but `c₀`, which raises `e₀` and is not a write to the database. -/
structure OneFault (env : Env) (c₀ : Call) (e₀ : Exn) : Prop where
  answer : ∀ n c, env.answer n c = if c = c₀ then .raise e₀ else .ok
  notSave : ∀ u row, c₀ ≠ .save u row

theorem OneFault.savesOk (hf : OneFault env c₀ e₀) : SavesOk env := by
  intro n u row
  rw [hf.answer, if_neg fun h => hf.notSave u row h.symm]

theorem wp_call_fault (hf : OneFault env c₀ e₀) {c : Call} {effect : World → World}
    {Q : Result Exn Unit → World → Prop}
    (hok : c ≠ c₀ → Q (.ok ()) (effect (s.turn env c)))
    (hraise : c = c₀ → Q (.raise e₀) (s.turn env c)) : wp (call env c effect) Q s := by
  by_cases hc : c = c₀
  · refine wp_call (fun h => ?_) (fun e h => ?_) (fun h => ?_)
    · rw [hf.answer, if_pos hc] at h
      cases h
    · rw [hf.answer, if_pos hc, Answer.raise.injEq] at h
      subst h
      exact hraise hc
    · rw [hf.answer, if_pos hc] at h
      cases h
  · refine wp_call (fun _ => hok hc) (fun e h => ?_) (fun h => ?_)
    · rw [hf.answer, if_neg hc] at h
      cases h
    · rw [hf.answer, if_neg hc] at h
      cases h

/-! ## What no handler marks -/

/-- The disk check sizes the record and asks nothing more. -/
def Sized (env : Env) (r : Record) : Prop := env.baseSize ≠ 0 ∧ r.disk = 0

/-- The disk asked for is smaller than what the node makes. -/
def TooSmall (env : Env) (r : Record) : Prop := env.baseSize ≠ 0 ∧ r.disk < env.baseSize

/-- The disk check refuses the record. -/
def Refused (env : Env) (r : Record) : Prop :=
  ¬ Sized env r ∧
    (TooSmall env r ∨ env.unenforceable r ≠ [] ∨ (env.diskQuota = false ∧ r.disk ≠ 0))

/-- The disk of the record after the disk check. -/
def diskAfter (env : Env) (r : Record) : Nat :=
  if env.baseSize ≠ 0 ∧ r.disk = 0 then max env.baseSize env.defaultDisk
  else if env.diskQuota = true ∧ r.disk = 0 then env.defaultDisk
  else r.disk

/-- The record makes a claim on the node. -/
def Asks (env : Env) (r : Record) (pci : Bool) : Prop :=
  r.memory ≠ 0 ∨ r.cpu ≠ 0 ∨ pci = true ∨ diskAfter env r ≠ 0

/-- The questions of the disk check that it gets to. -/
def QuotaGap (env : Env) (r : Record) : Call → Prop
  | .getHostDefaultBaseSize => True
  | .unenforceableLimits => ¬ Sized env r ∧ ¬ TooSmall env r
  | .nodeSupportDiskQuota => ¬ Sized env r ∧ ¬ TooSmall env r ∧ env.unenforceable r = []
  | _ => False

/-- The disk check gets to a question the record's size does not settle. -/
theorem QuotaGap.cases {r : Record} {c : Call} (h : QuotaGap env r c) :
    c = .getHostDefaultBaseSize ∨
      ((c = .unenforceableLimits ∨ c = .nodeSupportDiskQuota ∧ env.unenforceable r = []) ∧
        ¬ Sized env r ∧ ¬ TooSmall env r) := by
  unfold QuotaGap at h
  split at h
  · exact .inl rfl
  · exact .inr ⟨.inl rfl, h⟩
  · exact .inr ⟨.inr ⟨rfl, h.2.2⟩, h.1, h.2.1⟩
  · exact h.elim

/-- The calls of a claim. -/
def ClaimCall (u : Uuid) (c : Call) : Prop :=
  c = .getComputeNode ∨ c = .claimTest u ∨ c = .claimPci u ∨ c = .updateNode

/-- The calls of the create that are above its own handlers. -/
def ImageCall (u : Uuid) (c : Call) : Prop := c = .parseImageName u ∨ c = .imagePullPolicy u

/-- The calls of `_do_container_create` that only its own handlers are above. -/
def ClaimGap (env : Env) (u : Uuid) (r : Record) (pci : Bool) : Call → Prop
  | .parseImageName v | .imagePullPolicy v => v = u
  | .getComputeNode | .updateNode => Asks env r pci
  | .claimTest v | .claimPci v => v = u ∧ Asks env r pci
  | _ => False

theorem ClaimGap.cases {u : Uuid} {r : Record} {pci : Bool} {c : Call}
    (h : ClaimGap env u r pci c) : ImageCall u c ∨ (ClaimCall u c ∧ Asks env r pci) := by
  unfold ClaimGap at h
  split at h
  · exact .inl (.inl (h ▸ rfl))
  · exact .inl (.inr (h ▸ rfl))
  · exact .inr ⟨.inl rfl, h⟩
  · exact .inr ⟨.inr (.inr (.inr rfl)), h⟩
  · exact .inr ⟨.inr (.inl (h.1 ▸ rfl)), h.2⟩
  · exact .inr ⟨.inr (.inr (.inl (h.1 ▸ rfl))), h.2⟩
  · exact h.elim

/-- The calls whose exception no handler marks the record for. -/
def Unmarked (env : Env) (u : Uuid) (r : Record) (pci : Bool) (e : Exn) (c : Call) : Prop :=
  QuotaGap env r c ∨
    (ClaimGap env u r pci c ∧ ¬ Refused env r ∧ e.cls ≠ .resourcesUnavailable)

/-- The wait for volumes ends well. -/
def VolumesReady (env : Env) (vols : RequestedVolumes) (s : World) : Prop :=
  (pollAvailable env env.polls (vols.flatMap (·.2)) s).1 = .ok true

/-- The exceptions that a step of the create raises, and no clean-up. -/
inductive Original (env : Env) (d : Drivers) (x : Subject) (nets : List RequestedNetwork)
    (vols : RequestedVolumes) (c₀ : Call) (e₀ : Exn) : Exn → Prop where
  /-- The call that fails is one of the create, and this is its exception. -/
  | call : (∀ v, c₀ ≠ .isVolumeAvailable v) → Original env d x nets vols c₀ e₀ e₀
  /-- The volumes could not be read. -/
  | unreadable {v : Nat} : c₀ = .isVolumeAvailable v →
      Original env d x nets vols c₀ e₀ { cls := .conflict, text := reasonFor e₀ }
  /-- The volumes were not there in time. -/
  | unavailable :
      Original env d x nets vols c₀ e₀ { cls := .conflict, text := volumesNotAvailable env }
  /-- The disk check refused the record. -/
  | refused {msg : String} :
      msg = diskTooSmall env ∨ msg = noDiskQuota ∨ (∃ r, msg = cannotApply (env.unenforceable r)) →
      Original env d x nets vols c₀ e₀ { cls := .invalid, text := msg }
  /-- The driver raised it. -/
  | driver {e : Exn} {s : World} : (driverCreate env d nets vols x s).1 = .raise e →
      Original env d x nets vols c₀ e₀ e

/-! ## Waiting and attaching -/

/-- What a step before the claim ends with: nothing of the record is touched, or the record is
failed with its allocation given back, for an exception in `O`. -/
def Stage (x : Subject) (b : Bool) (s : World) (O : Exn → Prop) : Result Exn Unit → World → Prop
  | .ok _, s' => Same s s'
  | .raise e, s' => Failed x b s' ∧ Attempted x.uuid s' ∧ O e
  | .halt, _ => True

theorem wp_pollAvailable (hf : OneFault env c₀ e₀) (n : Nat) (vs : List VolMap) (s : World) :
    wp (pollAvailable env n vs)
      (fun r _ => ∀ e, r = .raise e → e = e₀ ∧ ∃ v, c₀ = .isVolumeAvailable v) s := by
  induction n generalizing vs s with
  | zero => cases vs <;> exact nofun
  | succ n ih =>
      cases vs with
      | nil => exact nofun
      | cons v vs =>
          unfold pollAvailable ask
          rw [wp_bind, wp_bind]
          refine wp_call_fault hf (fun _ => ?_) fun hc => ?_
          · rw [seqPost_ok, wp_read, seqPost_ok]
            split
            · exact ih vs _
            · exact nofun
            · exact ih (v :: vs) _
          · intro e he
            cases he
            exact ⟨rfl, v.id, hc.symm⟩

/-- The end of a wait that failed. -/
theorem wp_volumesFailed (hf : OneFault env c₀ e₀) (hx : ∀ m, x ≠ .member m) (hs : Ready x b s)
    (vs : List VolMap) (msg : String) :
    wp (do
      forEach vs fun v => swallow (call env (.deleteVolume v.id))
      failContainer env failDepth x msg true
      raise { cls := .conflict, text := msg })
      (fun r s' => r ≠ .ok () ∧
        Stage x b s (fun e => e = { cls := .conflict, text := msg }) r s') s := by
  rw [wp_bind]
  have hcalm : wp (forEach vs fun v => swallow (call env (.deleteVolume v.id)))
      (Calm (Ready x b)) s :=
    wp_forEach hs fun v _ s hs => calm_swallow (within_plain _ rfl) hs
  refine wp_mono hcalm ?_
  intro r s₁ hr
  cases r with
  | halt => exact ⟨nofun, trivial⟩
  | raise e => exact hr.elim
  | ok _ =>
      rw [seqPost_ok]
      refine wp_failing hf.savesOk (fun _ => hx) hr (fun _ => ⟨nofun, trivial⟩) ?_
      intro s' hfail hatt
      exact ⟨nofun, hfail, hatt rfl, rfl⟩

theorem wp_waitForVolumesAvailable (hf : OneFault env c₀ e₀) (hx : ∀ m, x ≠ .member m)
    (hs : Ready x b s) (vols : RequestedVolumes) :
    wp (waitForVolumesAvailable env vols x) (fun r s' => Stage x b s (fun e =>
      (∃ v, c₀ = .isVolumeAvailable v ∧ e = { cls := .conflict, text := reasonFor e₀ }) ∨
      e = { cls := .conflict, text := volumesNotAvailable env }) r s' ∧
      (r = .ok () ↔ VolumesReady env vols s)) s := by
  have hsame : Same s (pollAvailable env env.polls (vols.flatMap (·.2)) s).2 :=
    within_pollAvailable env.polls (vols.flatMap (·.2)) s
  have hraise := wp_pollAvailable hf env.polls (vols.flatMap (·.2)) s
  unfold waitForVolumesAvailable
  rw [wp_bind, wp_tryExcept, wp_bind]
  rcases hp : pollAvailable env env.polls (vols.flatMap (·.2)) s with ⟨r, s₁⟩
  rw [wp, hp] at hraise
  rw [hp] at hsame
  have hvols : VolumesReady env vols s ↔ r = .ok true := by
    unfold VolumesReady
    rw [hp]
  rw [hvols]
  refine wp_of_run hp ?_
  have hready : Ready x b s₁ := Loose.loose (R := Kept (Ready x b)) hsame hs
  cases r with
  | halt => exact ⟨trivial, by simp, by simp⟩
  | raise e =>
      rw [seqPost_raise, exceptPost_raise, wp_pure, seqPost_ok]
      obtain ⟨he, v, hv⟩ := hraise e rfl
      refine wp_mono (wp_volumesFailed hf hx hready _ (reasonFor e)) ?_
      intro r s' h
      refine ⟨?_, fun hr => absurd hr h.1, by simp⟩
      cases r with
      | ok _ => exact absurd rfl h.1
      | raise e' => exact ⟨h.2.1, h.2.2.1, .inl ⟨v, hv, he ▸ h.2.2.2⟩⟩
      | halt => trivial
  | ok available =>
      rw [seqPost_ok, wp_pure, exceptPost_ok, seqPost_ok]
      cases available with
      | true => exact ⟨hsame, fun _ => rfl, fun _ => rfl⟩
      | false =>
          refine wp_mono (wp_volumesFailed hf hx hready _ (volumesNotAvailable env)) ?_
          intro r s' h
          refine ⟨?_, fun hr => absurd hr h.1, by simp⟩
          cases r with
          | ok _ => exact absurd rfl h.1
          | raise e' => exact ⟨h.2.1, h.2.2.1, .inr h.2.2.2⟩
          | halt => trivial

/-- The calls that attach a volume. -/
def AttachCall (c : Call) : Prop := (∃ v, c = .createVolmap v) ∨ ∃ v, c = .attachVolume v

theorem wp_attachVolume (hf : OneFault env c₀ e₀) (v : VolMap) (s : World) :
    wp (attachVolume env v)
      (fun r _ => r = .ok () ∨ (r = .raise e₀ ∧ c₀ = .attachVolume v.id)) s := by
  unfold attachVolume
  rw [wp_reraising]
  refine wp_call_fault hf (fun _ => .inl rfl) fun hc => ?_
  rw [exceptPost_raise, wp_andThen, wp_bind]
  have hdrop (s : World) : wp (call env (.destroyVolmap v.id) fun s =>
      { s with volmaps := s.volmaps.filter (·.id ≠ v.id) })
      (seqPost (fun _ => (raise e₀ : Prog World Exn Unit))
        fun r _ => r = .ok () ∨ (r = .raise e₀ ∧ c₀ = .attachVolume v.id)) s := by
    refine wp_call_fault hf (fun _ => .inr ⟨rfl, hc.symm⟩) fun h => ?_
    rw [← hc] at h
    cases h
  refine wp_onlyIf (fun _ => ?_) fun _ => hdrop _
  rw [wp_swallow]
  exact wp_call_fault hf (fun _ => hdrop _) fun _ => hdrop _

/-- How far attaching came: everything is attached, or a call of it failed. -/
def Attaching (s : World) (c₀ : Call) (e₀ : Exn) (r : Result Exn Unit) (s' : World) : Prop :=
  Same s s' ∧ (r = .ok () ∨ (r = .raise e₀ ∧ AttachCall c₀))

theorem wp_attachEach (hf : OneFault env c₀ e₀) {y : Uuid} (hrow : (s.db y).isSome)
    (isMember : Bool) (vs : List VolMap) :
    wp (forEach vs fun v => do
      createVolmap env y v
      let connected ← read fun s => s.connected.contains v.volumeId
      if connected && isMember then pure () else attachVolume env v) (Attaching s c₀ e₀) s := by
  refine wp_forEach ⟨refl_of Same s, .inl rfl⟩ fun v _ s₁ hs₁ => ?_
  rw [wp_bind]
  refine wp_createVolmap env (fun hgone => ?_) fun _ => ?_
  · rw [hs₁.1.db] at hgone
    rw [hgone] at hrow
    cases hrow
  refine wp_call_fault hf (fun _ => ?_) fun hc => ?_
  · rw [seqPost_ok, wp_bind, wp_read, seqPost_ok, wp_ite]
    have hturn : Same s₁ { s₁.turn env (.createVolmap v.id) with
        volmaps := { v with containerUuid := y } :: s₁.volmaps } :=
      ⟨rfl, rfl, List.suffix_cons ..⟩
    have hs₂ := trans_of Same hs₁.1 hturn
    split
    · exact ⟨hs₂, .inl rfl⟩
    · refine wp_mono (wp_and (wp_attachVolume hf v _)
        ((within_attachVolume (R := Same) v).wp _)) ?_
      intro r s' hr
      refine ⟨trans_of Same hs₂ hr.2, ?_⟩
      obtain hok | ⟨hraise, hc⟩ := hr.1
      · exact .inl hok
      · exact .inr ⟨hraise, .inr ⟨_, hc⟩⟩
  · exact ⟨trans_of Same hs₁.1 (steady_turn _ s₁ rfl), .inr ⟨rfl, .inl ⟨_, hc.symm⟩⟩⟩

/-- How far attaching for the members of a capsule came.  What failed is marked. -/
def AttachingMembers (c : Capsule) (b : Bool) (s : World) (c₀ : Call) (e₀ : Exn) :
    Result Exn Unit → World → Prop
  | .ok _, s' => Same s s'
  | .raise e, s' => Ready (.capsule c) b s' ∧ e = e₀ ∧ AttachCall c₀
  | .halt, _ => True

theorem wp_attachMembers (hf : OneFault env c₀ e₀) {c : Capsule} {ms : List Uuid}
    (hms : ∀ m ∈ ms, m ∈ members (.capsule c)) (hs : Ready (.capsule c) b s)
    (vols : RequestedVolumes) {s₁ : World} (hs₁ : Same s s₁) :
    wp (forEach ms fun m => attachVolumesOf env vols (.member m) true)
      (AttachingMembers c b s c₀ e₀) s₁ := by
  refine wp_forEach hs₁ fun m hm s₂ hs₂ => ?_
  unfold attachVolumesOf
  rw [wp_reraising]
  have hrow : (s₂.db m).isSome := by
    rw [hs₂.db]
    exact hs.rows m (List.mem_cons_of_mem _ (hms m hm))
  refine wp_mono (wp_attachEach hf hrow true (vols.of m)) ?_
  intro r s₃ hr
  obtain ⟨hsame, hok | ⟨hraise, hcall⟩⟩ := hr
  · subst hok
    exact trans_of Same hs₂ hsame
  · subst hraise
    have hready : Ready (.capsule c) b s₃ :=
      Loose.loose (R := Kept (Ready _ b)) (trans_of Same hs₂ hsame) hs
    have hone : Ready (.member m) (s₃.mem m).val.autoRemove s₃ := by
      refine ⟨fun v hv => ?_, rfl⟩
      rw [List.mem_singleton.mp hv]
      exact hready.rows m (List.mem_cons_of_mem _ (hms m hm))
    rw [exceptPost_raise, wp_andThen]
    have hkeep : Within (Kept (Ready (.capsule c) b))
        (failContainer env failDepth (.member m) (reasonFor e₀) true) :=
      within_failContainer failDepth (.member m) (reasonFor e₀) true
    refine wp_mono (wp_and (calm_failContainer hf.savesOk hone) (hkeep.wp s₃)) ?_
    intro r s' h
    cases r with
    | ok _ => exact ⟨h.2 hready, rfl, hcall⟩
    | raise e => exact h.1.elim
    | halt => trivial

theorem wp_attachVolumes (hf : OneFault env c₀ e₀) (hx : ∀ m, x ≠ .member m)
    (hs : Ready x b s) (vols : RequestedVolumes) :
    wp (attachVolumes env vols x) (Stage x b s fun e => e = e₀ ∧ AttachCall c₀) s := by
  have hraised : ∀ e s', Ready x b s' → e = e₀ ∧ AttachCall c₀ →
      wp (andThen (failContainer env failDepth x (reasonFor e) true) fun _ => raise e)
        (Stage x b s fun e => e = e₀ ∧ AttachCall c₀) s' := by
    intro e s' hready he
    refine wp_failing hf.savesOk (fun _ => hx) hready (fun _ => trivial) ?_
    intro s'' hfail hatt
    exact ⟨hfail, hatt rfl, he⟩
  cases x with
  | member m => exact absurd rfl (hx m)
  | container u =>
      change wp (reraising _ _) _ s
      rw [wp_reraising]
      refine wp_mono (wp_attachEach hf (hs.rows u (List.mem_cons_self ..)) false (vols.of u)) ?_
      intro r s₁ hr
      obtain ⟨hsame, hok | ⟨hraise, hcall⟩⟩ := hr
      · subst hok
        exact hsame
      · subst hraise
        exact hraised e₀ s₁ (Loose.loose (R := Kept (Ready _ b)) hsame hs) ⟨rfl, hcall⟩
  | capsule c =>
      change wp (reraising _ _) _ s
      rw [wp_reraising, wp_bind]
      refine wp_mono (wp_attachMembers hf (fun m hm => List.mem_append_left _ hm) hs vols
        (refl_of Same s)) ?_
      intro r s₁ hr
      cases r with
      | halt => trivial
      | raise e => exact hraised e s₁ hr.1 hr.2
      | ok _ =>
          rw [seqPost_ok]
          refine wp_mono (wp_attachMembers hf (fun m hm => List.mem_append_right _ hm) hs vols
            hr) ?_
          intro r s₂ hr
          cases r with
          | halt => trivial
          | raise e => exact hraised e s₂ hr.1 hr.2
          | ok _ => exact hr

/-! ## The disk check -/

/-- The exceptions of a refusal. -/
def Refusal (env : Env) (e : Exn) : Prop :=
  ∃ msg, e = { cls := .invalid, text := msg } ∧
    (msg = diskTooSmall env ∨ msg = noDiskQuota ∨ ∃ r, msg = cannotApply (env.unenforceable r))

/-- What the disk check ends with. -/
def Checked (x : Subject) (b : Bool) (r : Record) (s : World) (c₀ : Call) (e₀ : Exn) (env : Env) :
    Result Exn Unit → World → Prop
  | .ok _, s' => ¬ Refused env r ∧ ¬ QuotaGap env r c₀ ∧ s'.db = s.db ∧ Ready x b s' ∧
      (s'.mem x.uuid).val = { r with disk := diskAfter env r }
  | .raise e, s' => (Failed x b s' ∧ Attempted x.uuid s' ∧ Refusal env e ∧ Refused env r ∧
      ¬ QuotaGap env r c₀) ∨ (e = e₀ ∧ Same s s' ∧ QuotaGap env r c₀)
  | .halt, _ => True

theorem wp_refuse (hf : OneFault env c₀ e₀) (hx : ∀ m, x ≠ .member m) (hs : Ready x b s)
    {s₀ : World} {r : Record} {msg : String}
    (hmsg : msg = diskTooSmall env ∨ msg = noDiskQuota ∨ ∃ r, msg = cannotApply (env.unenforceable r))
    (href : Refused env r) (hgap : ¬ QuotaGap env r c₀) {f : Unit → Prog World Exn Unit} :
    wp (refuse env x msg) (seqPost f (Checked x b r s₀ c₀ e₀ env)) s := by
  refine wp_failing hf.savesOk (fun _ => hx) hs (fun _ => trivial) ?_
  intro s' hfail hatt
  exact .inl ⟨hfail, hatt rfl, ⟨msg, rfl, hmsg⟩, href, hgap⟩

theorem wp_checkSupportDiskQuota (hf : OneFault env c₀ e₀) (hx : ∀ m, x ≠ .member m)
    (hs : Ready x b s) {r : Record} (hr : (s.mem x.uuid).val = r) :
    wp (checkSupportDiskQuota env x) (Checked x b r s c₀ e₀ env) s := by
  have hok : ∀ (s' : World) (f : Obj → Obj), Same s s' → ¬ Refused env r → ¬ QuotaGap env r c₀ →
      (f (s.mem x.uuid)).val = { r with disk := diskAfter env r } →
      Checked x b r s c₀ e₀ env (.ok ()) (s'.setMem x.uuid f) := by
    intro s' f hsame href hgap hval
    have hmem : ((s'.setMem x.uuid f).mem x.uuid).val = { r with disk := diskAfter env r } := by
      rw [setMem_mem_self, hsame.mem, hval]
    refine ⟨href, hgap, hsame.db, ⟨?_, ?_⟩, hmem⟩
    · intro v hv
      rw [setMem_db, hsame.db]
      exact hs.rows v hv
    · rw [hmem, ← hs.obj, hr]
  unfold checkSupportDiskQuota
  rw [wp_bind]
  refine wp_call_fault hf (fun hc₁ => ?_) fun hc => ?_
  swap
  · exact .inr ⟨rfl, steady_turn _ s rfl, by subst hc; trivial⟩
  rw [seqPost_ok, id_eq, wp_bind, wp_obj, seqPost_ok, wp_ite, turn_mem, hr]
  have hs₁ : Same s (s.turn env .getHostDefaultBaseSize) := steady_turn _ s rfl
  by_cases hsized : env.baseSize ≠ 0 ∧ r.disk = 0
  · rw [if_pos hsized, wp_assign]
    refine hok _ _ hs₁ (fun h => h.1 hsized) (fun h => ?_) ?_
    · obtain rfl | ⟨-, h, -⟩ := h.cases
      · exact hc₁ rfl
      · exact h hsized
    · rw [diskAfter, if_pos hsized, ← hr]
      rfl
  rw [if_neg hsized, wp_bind]
  have hready : ∀ {s'}, Same s s' → Ready x b s' :=
    fun h => Loose.loose (R := Kept (Ready x b)) h hs
  refine wp_onlyIf (fun hsmall => ?_) fun hsmall => ?_
  · refine wp_refuse hf hx (hready hs₁) (.inl rfl) ⟨hsized, .inl hsmall⟩ fun h => ?_
    obtain rfl | ⟨-, -, h⟩ := h.cases
    · exact hc₁ rfl
    · exact h hsmall
  rw [seqPost_ok, wp_bind]
  unfold ask
  rw [wp_bind]
  refine wp_call_fault hf (fun hc₂ => ?_) fun hc => ?_
  swap
  · exact .inr ⟨rfl, trans_of Same hs₁ (steady_turn _ _ rfl), by subst hc; exact ⟨hsized, hsmall⟩⟩
  rw [seqPost_ok, id_eq, wp_read, seqPost_ok, turn_mem, turn_mem, hr, wp_bind]
  have hs₂ := hs₁.turn env .unenforceableLimits
  refine wp_onlyIf (fun hun => ?_) fun hun => ?_
  · refine wp_refuse hf hx (hready hs₂) (.inr (.inr ⟨r, rfl⟩)) ⟨hsized, .inr (.inl hun)⟩ fun h => ?_
    obtain rfl | ⟨rfl | ⟨-, h⟩, -⟩ := h.cases
    · exact hc₁ rfl
    · exact hc₂ rfl
    · exact hun h
  rw [seqPost_ok, wp_bind]
  rw [ne_eq, not_not] at hun
  refine wp_call_fault hf (fun hc₃ => ?_) fun hc => ?_
  swap
  · exact .inr ⟨rfl, trans_of Same hs₂ (steady_turn _ _ rfl), by subst hc; exact ⟨hsized, hsmall, hun⟩⟩
  have hgap : ¬ QuotaGap env r c₀ := by
    intro h
    obtain rfl | ⟨rfl | ⟨rfl, -⟩, -⟩ := h.cases
    · exact hc₁ rfl
    · exact hc₂ rfl
    · exact hc₃ rfl
  have hs₃ := hs₂.turn env .nodeSupportDiskQuota
  rw [seqPost_ok, id_eq, wp_bind]
  refine wp_onlyIf (fun hquota => ?_) fun hquota => ?_
  · exact wp_refuse hf hx (hready hs₃) (.inr (.inl rfl)) ⟨hsized, .inr (.inr hquota)⟩ hgap
  have href : ¬ Refused env r := by
    rintro ⟨-, h | h | h⟩
    · exact hsmall h
    · exact h hun
    · exact hquota h
  rw [seqPost_ok, wp_bind]
  refine wp_call_fault hf (fun _ => ?_) fun hc => absurd hc hc₃
  rw [seqPost_ok, id_eq]
  have hs₄ := hs₃.turn env .nodeSupportDiskQuota
  refine wp_onlyIf (fun hset => ?_) fun hset => ?_
  · rw [wp_assign]
    refine hok _ _ hs₄ href hgap ?_
    rw [diskAfter, if_neg hsized, if_pos hset, ← hr]
    rfl
  · refine ⟨href, hgap, hs₄.db, hready hs₄, ?_⟩
    rw [hs₄.mem, hr, diskAfter, if_neg hsized, if_neg hset]

/-! ## The claim and the build -/

/-- The record stands, and it has this status. -/
structure Standing (x : Subject) (b : Bool) (st : Status) (s : World) : Prop where
  ready : Ready x b s
  status : HasStatus x.uuid st s

theorem Standing.turn {st : Status} (c : Call) (h : Standing x b st s) :
    Standing x b st (s.turn env c) :=
  ⟨⟨h.ready.rows, h.ready.obj⟩, ⟨h.status.obj, h.status.row⟩⟩

theorem Standing.setMem {st : Status} {u : Uuid} {f : Obj → Obj}
    (hauto : ∀ o, (f o).val.autoRemove = o.val.autoRemove)
    (hstatus : ∀ o, (f o).val.status = o.val.status) (h : Standing x b st s) :
    Standing x b st (s.setMem u f) := ⟨h.ready.setMem hauto, h.status.setMem hstatus⟩

theorem wp_save_standing {st : Status} (hsave : SavesOk env) (h : Standing x b st s)
    {Q : Result Exn Unit → World → Prop} (hQ : ∀ s', Standing x b st s' → Q (.ok ()) s') :
    wp (save env x.uuid) Q s := by
  refine wp_save_ok hsave (h.ready.rows _ (List.mem_cons_self ..)) fun row hrow => hQ _ ?_
  have h' : Standing x b st (s.turn env (.save x.uuid (s.merged x.uuid row))) := h.turn _
  exact ⟨h'.ready.saved, h'.status.saved hrow⟩

theorem wp_containerClaim (hf : OneFault env c₀ e₀) {r : Record} {pci : Bool} {st : Status}
    (hs : Standing x b st s) (hr : (s.mem x.uuid).val = { r with disk := diskAfter env r }) :
    wp (containerClaim env x.uuid pci) (fun res s' =>
      match res with
      | .ok real => Standing x b st s' ∧ (real = true → ¬ ClaimCall x.uuid c₀) ∧
          (Asks env r pci → real = true)
      | .raise e => e = e₀ ∧ Standing x b st s' ∧ Asks env r pci ∧ ClaimCall x.uuid c₀
      | .halt => True) s := by
  unfold containerClaim
  rw [wp_bind, wp_obj, seqPost_ok, hr, wp_ite]
  dsimp only
  by_cases hasks : Asks env r pci
  swap
  · have h : (!(decide (r.memory ≠ 0) || decide (r.cpu ≠ 0) || pci ||
        decide (diskAfter env r ≠ 0))) = true := by
      simpa [Asks, and_assoc] using hasks
    rw [if_pos h]
    exact ⟨hs, nofun, fun h => absurd h hasks⟩
  have h : ¬ (!(decide (r.memory ≠ 0) || decide (r.cpu ≠ 0) || pci ||
      decide (diskAfter env r ≠ 0))) = true := by
    simp only [ne_eq, decide_not, Bool.not_eq_false, Bool.or_eq_true,
      Bool.not_eq_eq_eq_not, Bool.not_true, decide_eq_false_iff_not, or_assoc]
    exact hasks
  rw [if_neg h, wp_bind]
  refine wp_call_fault hf (fun h₁ => ?_) fun hc => ⟨rfl, hs.turn _, hasks, .inl hc.symm⟩
  rw [seqPost_ok, id_eq, wp_bind]
  refine wp_call_fault hf (fun h₂ => ?_)
    fun hc => ⟨rfl, (hs.turn _).turn _, hasks, .inr (.inl hc.symm)⟩
  rw [seqPost_ok, id_eq, wp_bind]
  refine wp_call_fault hf (fun h₃ => ?_)
    fun hc => ⟨rfl, ((hs.turn _).turn _).turn _, hasks, .inr (.inr (.inl hc.symm))⟩
  rw [seqPost_ok, id_eq, wp_bind, wp_assign, seqPost_ok, wp_bind]
  have hset : ∀ s, Standing x b st s → Standing x b st (s.setMem x.uuid (Obj.setHost env.host)) :=
    fun s h => h.setMem (fun _ => rfl) (fun _ => rfl)
  refine wp_save_standing hf.savesOk (hset _ (((hs.turn _).turn _).turn _)) fun s' hs' => ?_
  rw [seqPost_ok, wp_bind]
  refine wp_call_fault hf (fun h₄ => ?_)
    fun hc => ⟨rfl, hs'.turn _, hasks, .inr (.inr (.inr hc.symm))⟩
  refine ⟨hs'.turn _, fun _ hcall => ?_, fun _ => rfl⟩
  obtain hc | hc | hc | hc := hcall
  · exact h₁ hc.symm
  · exact h₂ hc.symm
  · exact h₃ hc.symm
  · exact h₄ hc.symm

/-- What the create ends with while it owns the record: marked, for an exception in `O`, or
as it was, for the exception of a call in `G`. -/
def Building (x : Subject) (b : Bool) (st : Status) (O : Exn → Prop) (G : Prop) (e₀ : Exn) :
    Result Exn Unit → World → Prop
  | .ok _, s => Ready x b s
  | .raise e, s => (Standing x b (failedStatus b) s ∧ O e ∧ ¬ G) ∨
      (e = e₀ ∧ Standing x b st s ∧ G)
  | .halt, _ => True

/-- Steps that keep a standing record keep what the create ends with. -/
theorem Building.keep {st : Status} {O : Exn → Prop} {G : Prop} {p : Prog World Exn Unit}
    {e : Exn} (hp : ∀ st s, Standing x b st s → wp p (Calm (Standing x b st)) s)
    (h : Building x b st O G e₀ (.raise e) s) :
    wp (andThen p fun _ => raise e) (Building x b st O G e₀) s := by
  rw [wp_andThen]
  obtain ⟨hs, hO, hG⟩ | ⟨he, hs, hG⟩ := h
  · refine wp_mono (hp _ s hs) ?_
    intro r s' hr
    cases r with
    | ok _ => exact .inl ⟨hr, hO, hG⟩
    | raise e => exact hr.elim
    | halt => trivial
  · refine wp_mono (hp _ s hs) ?_
    intro r s' hr
    cases r with
    | ok _ => exact .inr ⟨he, hr, hG⟩
    | raise e => exact hr.elim
    | halt => trivial

/-- Assigning `task_state` and saving keep a standing record. -/
theorem calm_setTaskState {st : Status} (hsave : SavesOk env) (t : Option TaskState)
    (hs : Standing x b st s) :
    wp (do assign x.uuid (Obj.setTaskState t); save env x.uuid) (Calm (Standing x b st)) s := by
  rw [wp_bind, wp_assign, seqPost_ok]
  have hset : Standing x b st (s.setMem x.uuid (Obj.setTaskState t)) :=
    hs.setMem (fun _ => rfl) (fun _ => rfl)
  exact wp_save_standing hsave hset fun _ h => h

theorem calm_setTaskState_ready (hsave : SavesOk env) (t : Option TaskState) (hs : Ready x b s) :
    wp (do assign x.uuid (Obj.setTaskState t); save env x.uuid) (Calm (Ready x b)) s := by
  rw [wp_bind, wp_assign, seqPost_ok]
  have h : Ready x b (s.setMem x.uuid (Obj.setTaskState t)) := Ready.setMem (fun _ => rfl) hs
  refine wp_save_ok hsave (h.rows _ (List.mem_cons_self ..)) fun row hrow => ?_
  exact Ready.saved (s := World.turn env _ _) ⟨h.rows, h.obj⟩

theorem wp_updateTaskState_building {st : Status} {O : Exn → Prop} {G : Prop} {t : TaskState}
    {body : Prog World Exn Unit} (hsave : SavesOk env) (hs : Standing x b st s)
    (hbody : ∀ s, Standing x b st s → wp body (Building x b st O G e₀) s) :
    wp (updateTaskState env x.uuid t body) (Building x b st O G e₀) s := by
  unfold updateTaskState
  rw [wp_bind, wp_obj, seqPost_ok, wp_ite]
  split
  · exact hbody s hs
  change wp (do
    (do assign x.uuid (Obj.setTaskState (some t)); save env x.uuid)
    tryFinally body (do assign x.uuid (Obj.setTaskState none); save env x.uuid)) _ s
  rw [wp_bind]
  refine wp_mono (calm_setTaskState hsave _ hs) ?_
  intro r s₁ hr
  cases r with
  | halt => trivial
  | raise e => exact hr.elim
  | ok _ =>
      rw [seqPost_ok, wp_tryFinally]
      refine wp_mono (hbody s₁ hr) ?_
      intro r s₂ hr
      cases r with
      | halt => trivial
      | ok a =>
          rw [finallyPost_ok]
          refine wp_mono (calm_setTaskState_ready hsave none hr) ?_
          intro r s₃ hr
          cases r with
          | ok _ => exact hr
          | raise e => exact hr.elim
          | halt => trivial
      | raise e =>
          rw [finallyPost_raise]
          have h := hr.keep fun st s hs => calm_setTaskState hsave none hs
          rw [wp_andThen] at h
          exact h

/-- A handler that fails the record, inside the create. -/
theorem wp_failFor_building {st : Status} {O : Exn → Prop} {G : Prop} {fallback : String}
    {unset : Bool} (hsave : SavesOk env) (hx : ∀ m, x ≠ .member m) (hs : Ready x b s)
    {e : Exn} (hO : O e) (hG : ¬ G) :
    wp (andThen (failFor env x fallback unset e) fun _ => raise e) (Building x b st O G e₀) s := by
  refine wp_failing hsave (fun _ => hx) hs (fun _ => trivial) ?_
  intro s' hfail _
  exact .inl ⟨⟨hfail.1, hfail.2⟩, hO, hG⟩

section Build

variable {nets : List RequestedNetwork} {vols : RequestedVolumes} {st : Status}

theorem wp_pullImage (hf : OneFault env c₀ e₀) (hx : ∀ m, x ≠ .member m)
    (hs : Standing x b st s) {O : Exn → Prop} {G : Prop}
    (hO : (∀ v, c₀ ≠ .isVolumeAvailable v) → O e₀) (hG : ¬ G) :
    wp (pullImage env x) (fun r s' =>
      match r with
      | .ok _ => Standing x b st s'
      | r => Building x b st O G e₀ r s') s := by
  have hfail : ∀ s', Ready x b s' → O e₀ →
      wp (andThen (failFor env x Reasons.imageNotPulled false e₀) fun _ => raise e₀)
        (fun r s' =>
          match r with
          | .ok _ => Standing x b st s'
          | r => Building x b st O G e₀ r s') s' := by
    intro s' hs' hO
    refine wp_failing hf.savesOk (fun _ => hx) hs' (fun _ => trivial) ?_
    intro s'' hfail _
    exact .inl ⟨⟨hfail.1, hfail.2⟩, hO, hG⟩
  unfold pullImage
  rw [wp_reraising, wp_bind]
  refine wp_call_fault hf (fun _ => ?_) fun hc => ?_
  · rw [seqPost_ok]
    refine wp_onlyIf (fun _ => ?_) fun _ => hs.turn _
    refine wp_call_fault hf (fun _ => (hs.turn _).turn _) fun hc => ?_
    exact hfail _ ((hs.turn _).turn _).ready (hO (by rw [← hc]; exact fun _ => nofun))
  · exact hfail _ (hs.turn _).ready (hO (by rw [← hc]; exact fun _ => nofun))

theorem wp_build (hf : OneFault env c₀ e₀) (hd : d.Lawful) (hx : ∀ m, x ≠ .member m)
    (hs : Standing x b st s) {G : Prop} (hG : ¬ G) :
    wp (build env d x nets vols)
      (Building x b st (Original env d x nets vols c₀ e₀) G e₀) s := by
  unfold build
  rw [wp_reraising, wp_bind]
  have hdriver : ∀ s', Ready x b s' → wp (driverCreate env d nets vols x)
      (exceptPost (fun e => andThen (failFor env x Reasons.notCreated true e) fun _ => raise e)
        (Building x b st (Original env d x nets vols c₀ e₀) G e₀)) s' := by
    intro s' hs'
    have hwithin : Within (Kept (Ready x b)) (driverCreate env d nets vols x) :=
      within_driverCreate hd nets vols x
    have hkeep := hwithin s' hs'
    rcases hrun : driverCreate env d nets vols x s' with ⟨r, s''⟩
    rw [hrun] at hkeep
    refine wp_of_run hrun ?_
    cases r with
    | ok _ => exact hkeep
    | halt => trivial
    | raise e =>
        refine wp_failFor_building hf.savesOk hx hkeep (.driver (s := s') ?_) hG
        rw [hrun]
  refine wp_onlyIf (fun _ => ?_) fun _ => hdriver _ hs.ready
  refine wp_call_fault hf (fun _ => hdriver _ (hs.turn _).ready) fun hc => ?_
  refine wp_failFor_building hf.savesOk hx (hs.turn _).ready (.call ?_) hG
  rw [← hc]
  exact fun _ => nofun

theorem wp_createOwned (hf : OneFault env c₀ e₀) (hd : d.Lawful) (hx : ∀ m, x ≠ .member m)
    (hs : Standing x b st s) {G : Prop} (hG : G ↔ ImageCall x.uuid c₀) :
    wp (createOwned env d x nets vols)
      (Building x b st (Original env d x nets vols c₀ e₀) G e₀) s := by
  unfold createOwned
  rw [wp_bind]
  refine wp_call_fault hf (fun h₁ => ?_) fun hc => .inr ⟨rfl, hs.turn _, hG.mpr (.inl hc.symm)⟩
  rw [seqPost_ok, id_eq, wp_bind]
  refine wp_call_fault hf (fun h₂ => ?_)
    fun hc => .inr ⟨rfl, (hs.turn _).turn _, hG.mpr (.inr hc.symm)⟩
  rw [seqPost_ok, id_eq, wp_bind]
  have hnot : ¬ G := by
    rw [hG]
    rintro (h | h)
    · exact h₁ h.symm
    · exact h₂ h.symm
  have hrest : ∀ s', Standing x b st s' → wp (do save env x.uuid; build env d x nets vols)
      (Building x b st (Original env d x nets vols c₀ e₀) G e₀) s' := by
    intro s' hs'
    rw [wp_bind]
    exact wp_save_standing hf.savesOk hs' fun s'' hs'' => wp_build hf hd hx hs'' hnot
  refine wp_onlyIf (fun _ => ?_) fun _ => hrest _ ((hs.turn _).turn _)
  refine wp_mono (wp_pullImage (O := Original env d x nets vols c₀ e₀) hf hx
    ((hs.turn _).turn _) .call hnot) ?_
  intro r s' hr
  cases r with
  | ok _ => exact hrest s' hr
  | raise e => exact hr
  | halt => trivial

/-- What the create ends with inside its claim. -/
theorem wp_claimAndCreate (hf : OneFault env c₀ e₀) (hd : d.Lawful) (hx : ∀ m, x ≠ .member m)
    {r : Record} {pci : Bool} (hs : Standing x b st s)
    (hr : (s.mem x.uuid).val = { r with disk := diskAfter env r }) :
    wp (claimAndCreate env d x nets vols pci)
      (Building x b st (Original env d x nets vols c₀ e₀) (ClaimGap env x.uuid r pci c₀) e₀) s := by
  unfold claimAndCreate
  rw [wp_bind]
  refine wp_mono (wp_containerClaim hf hs hr) ?_
  intro res s₁ h
  cases res with
  | halt => trivial
  | raise e =>
      obtain ⟨he, hs₁, hasks, hcall⟩ := h
      refine .inr ⟨he, hs₁, ?_⟩
      obtain hc | hc | hc | hc := hcall <;> subst hc
      · exact hasks
      · exact ⟨rfl, hasks⟩
      · exact ⟨rfl, hasks⟩
      · exact hasks
  | ok real =>
      obtain ⟨hs₁, hreal, hasks⟩ := h
      have hgap : ClaimGap env x.uuid r pci c₀ ↔ ImageCall x.uuid c₀ := by
        constructor
        · intro h
          obtain h | ⟨hcall, h⟩ := h.cases
          · exact h
          · exact absurd hcall (hreal (hasks h))
        · rintro (h | h) <;> subst h <;> rfl
      have hbase : wp (doContainerCreateBase env d x nets vols)
          (Building x b st (Original env d x nets vols c₀ e₀)
            (ClaimGap env x.uuid r pci c₀) e₀) s₁ :=
        wp_updateTaskState_building hf.savesOk hs₁ fun s hs => wp_createOwned hf hd hx hs hgap
      rw [seqPost_ok]
      cases real with
      | false => exact hbase
      | true =>
          change wp (reraising _ _) _ s₁
          rw [wp_reraising]
          refine wp_mono hbase ?_
          intro res s₂ h
          cases res with
          | ok _ => exact h
          | halt => trivial
          | raise e =>
              rw [exceptPost_raise]
              refine h.keep fun st s hs => ?_
              refine wp_call_fault hf (fun _ => hs.turn _) fun hc => ?_
              exact (hreal rfl (.inr (.inr (.inr hc.symm)))).elim

end Build

/-! ## The thread -/

/-- What a failed create leaves when it is handled: the record marked, placement asked to
delete its allocation, and the exception of the step that failed on its way. -/
structure Handled (env : Env) (d : Drivers) (x : Subject) (nets : List RequestedNetwork)
    (vols : RequestedVolumes) (c₀ : Call) (e₀ : Exn) (b : Bool) (e : Exn) (s : World) : Prop where
  status : ∃ r, s.db x.uuid = some r ∧ r.status = failedStatus b
  allocation : Attempted x.uuid s
  exception : Original env d x nets vols c₀ e₀ e

/-- What a create whose call `c₀` raises ends with: handled, or still in Creating. -/
def Verdict (env : Env) (d : Drivers) (x : Subject) (nets : List RequestedNetwork)
    (vols : RequestedVolumes) (c₀ : Call) (e₀ : Exn) (b : Bool) (U : Prop) :
    Result Exn Unit → World → Prop
  | .ok _, _ => True
  | .raise e, s => (Handled env d x nets vols c₀ e₀ b e s ∧ ¬ U) ∨
      ((∃ r, s.db x.uuid = some r ∧ r.status = .creating) ∧ U)
  | .halt, _ => True

variable {nets : List RequestedNetwork} {vols : RequestedVolumes}

theorem wp_doContainerCreate (hf : OneFault env c₀ e₀) (hd : d.Lawful) (hx : ∀ m, x ≠ .member m)
    {r : Record} {pci : Bool} (hs : Standing x b .creating s)
    (hr : (s.mem x.uuid).val = { r with disk := diskAfter env r })
    (href : ¬ Refused env r) (hgap : ¬ QuotaGap env r c₀) :
    wp (doContainerCreate env d x nets vols pci)
      (Verdict env d x nets vols c₀ e₀ b (Unmarked env x.uuid r pci e₀ c₀)) s := by
  unfold doContainerCreate
  rw [wp_reraising]
  refine wp_mono (wp_claimAndCreate hf hd hx hs hr) ?_
  intro res s₁ h
  cases res with
  | ok _ => trivial
  | halt => trivial
  | raise e =>
      rw [exceptPost_raise]
      unfold createFailed
      by_cases hru : e.cls = .resourcesUnavailable
      · rw [if_pos hru]
        have hready : Ready x b s₁ := by
          obtain ⟨hs₁, -, -⟩ | ⟨-, hs₁, -⟩ := h
          · exact hs₁.ready
          · exact hs₁.ready
        refine wp_failing hf.savesOk (fun _ => hx) hready (fun _ => trivial) ?_
        intro s' hfail hatt
        obtain ⟨-, hO, hG⟩ | ⟨he, -, hG⟩ := h
        · refine .inl ⟨⟨hfail.2.row, hatt rfl, hO⟩, ?_⟩
          rintro (h | h)
          · exact hgap h
          · exact hG h.1
        · refine .inl ⟨⟨hfail.2.row, hatt rfl, ?_⟩, ?_⟩
          · rw [he]
            refine .call ?_
            intro v hv
            subst hv
            exact hG
          · rintro (h | h)
            · exact hgap h
            · exact h.2.2 (he ▸ hru)
      · rw [if_neg hru, wp_andThen]
        have hask : ∀ {st}, Standing x b st s₁ →
            wp (swallow (deleteAllocation env x.uuid))
              (Calm fun s' => Standing x b st s' ∧ Attempted x.uuid s') s₁ := by
          intro st hs₁
          refine calm_deleteAllocation (within_call (fun s hs => hs.turn _) fun s hs => ?_) hs₁
          exact ⟨⟨hs.ready.rows, hs.ready.obj⟩, ⟨hs.status.obj, hs.status.row⟩⟩
        obtain ⟨hs₁, hO, hG⟩ | ⟨he, hs₁, hG⟩ := h
        · refine wp_mono (hask hs₁) ?_
          intro res s' h
          cases res with
          | halt => trivial
          | raise e => exact h.elim
          | ok _ =>
              refine .inl ⟨⟨h.1.status.row, h.2, hO⟩, ?_⟩
              rintro (h | h)
              · exact hgap h
              · exact hG h.1
        · refine wp_mono (hask hs₁) ?_
          intro res s' h
          cases res with
          | halt => trivial
          | raise e => exact h.elim
          | ok _ => exact .inr ⟨h.1.status.row, .inr ⟨hG, href, he ▸ hru⟩⟩

theorem wp_createSteps (hf : OneFault env c₀ e₀) (hd : d.Lawful) (hx : ∀ m, x ≠ .member m)
    {r : Record} {pci : Bool} (hrows : ∀ v ∈ x.uuid :: members x, (s.db v).isSome)
    (hrow : s.db x.uuid = some r) (hobj : (s.mem x.uuid).val = r) (hstatus : r.status = .creating) :
    wp (createSteps env d x nets vols pci)
      (Verdict env d x nets vols c₀ e₀ r.autoRemove
        (VolumesReady env vols s ∧ Unmarked env x.uuid r pci e₀ c₀)) s := by
  have hs : Ready x r.autoRemove s := ⟨hrows, by rw [hobj]⟩
  unfold createSteps
  rw [wp_bind]
  refine wp_mono (wp_waitForVolumesAvailable hf hx hs vols) ?_
  intro res s₁ ⟨h, hvols⟩
  cases res with
  | halt => trivial
  | raise e =>
      obtain ⟨hfail, hatt, hO⟩ := h
      refine .inl ⟨⟨hfail.2.row, hatt, ?_⟩, fun hU => nomatch hvols.mpr hU.1⟩
      obtain ⟨v, hv, he⟩ | he := hO
      · exact he ▸ .unreadable hv
      · exact he ▸ .unavailable
  | ok _ =>
  have hready : VolumesReady env vols s := hvols.mp rfl
  rw [seqPost_ok, wp_bind]
  refine wp_mono (wp_attachVolumes hf hx (Loose.loose (R := Kept (Ready x _)) h hs) vols) ?_
  intro res s₂ h₂
  cases res with
  | halt => trivial
  | raise e =>
      obtain ⟨hfail, hatt, he, hcall⟩ := h₂
      refine .inl ⟨⟨hfail.2.row, hatt, ?_⟩, ?_⟩
      · rw [he]
        refine .call ?_
        obtain ⟨v, hv⟩ | ⟨v, hv⟩ := hcall <;> rw [hv] <;> exact fun _ => nofun
      · rintro ⟨-, h | ⟨h, -⟩⟩ <;> obtain ⟨v, hv⟩ | ⟨v, hv⟩ := hcall <;> subst hv <;> exact h
  | ok _ =>
  have hsame := trans_of Same h h₂
  have hobj₂ : (s₂.mem x.uuid).val = r := by rw [hsame.mem, hobj]
  rw [seqPost_ok, wp_bind]
  refine wp_mono (wp_checkSupportDiskQuota hf hx
    (Loose.loose (R := Kept (Ready x _)) hsame hs) hobj₂) ?_
  intro res s₃ h₃
  cases res with
  | halt => trivial
  | raise e =>
      obtain ⟨hfail, hatt, hO, href, hgap⟩ | ⟨he, hs₃, hgap⟩ := h₃
      · obtain ⟨msg, he, hmsg⟩ := hO
        refine .inl ⟨⟨hfail.2.row, hatt, he ▸ .refused hmsg⟩, ?_⟩
        rintro ⟨-, h | ⟨-, h, -⟩⟩
        · exact hgap h
        · exact h href
      · refine .inr ⟨⟨r, ?_, hstatus⟩, hready, .inl hgap⟩
        rw [hs₃.db, hsame.db, hrow]
  | ok _ =>
  obtain ⟨href, hgap, hdb, hs₃, hobj₃⟩ := h₃
  have hstanding : Standing x r.autoRemove .creating s₃ := by
    refine ⟨hs₃, ?_, r, ?_, hstatus⟩
    · rw [hobj₃]
      exact hstatus
    · rw [hdb, hsame.db, hrow]
  rw [seqPost_ok]
  refine wp_mono (wp_doContainerCreate hf hd hx hstanding hobj₃ href hgap) ?_
  intro res s₄ h₄
  cases res with
  | ok _ => trivial
  | halt => trivial
  | raise e =>
      obtain ⟨h, hU⟩ | ⟨h, hU⟩ := h₄
      · exact .inl ⟨h, fun h => hU h.2⟩
      · exact .inr ⟨h, hready, hU⟩

/-- The thread of `container_create` ends as a failed create should. -/
def HandlesFailure (env : Env) (d : Drivers) (x : Subject) (nets : List RequestedNetwork)
    (vols : RequestedVolumes) (pci run : Bool) (c₀ : Call) (e₀ : Exn) (b : Bool) (s : World) :
    Prop :=
  ∃ e, (containerCreate env d x nets vols pci run s).1 = .raise e ∧
    Handled env d x nets vols c₀ e₀ b e (containerCreate env d x nets vols pci run s).2

/-- A create that one call makes fail is handled exactly when a handler marks the record for
that call, or the volumes fail it before the thread gets there. -/
theorem handlesFailure_iff {pci run : Bool} {r : Record} (hd : d.Lawful)
    (hf : OneFault env c₀ e₀) (hx : ∀ m, x ≠ .member m)
    (hrows : ∀ v ∈ x.uuid :: members x, (s.db v).isSome) (hrow : s.db x.uuid = some r)
    (hobj : (s.mem x.uuid).val = r) (hstatus : r.status = .creating)
    (hraise : ∃ e, (createSteps env d x nets vols pci s).1 = .raise e) :
    HandlesFailure env d x nets vols pci run c₀ e₀ r.autoRemove s ↔
      ¬ (VolumesReady env vols s ∧ Unmarked env x.uuid r pci e₀ c₀) := by
  obtain ⟨e, he⟩ := hraise
  have hverdict : wp (createSteps env d x nets vols pci) (Verdict env d x nets vols c₀ e₀
      r.autoRemove (VolumesReady env vols s ∧ Unmarked env x.uuid r pci e₀ c₀)) s :=
    wp_createSteps hf hd hx hrows hrow hobj hstatus
  rcases hrun : createSteps env d x nets vols pci s with ⟨res, s'⟩
  rw [wp, hrun] at hverdict
  rw [hrun] at he
  dsimp only at he
  subst he
  have hthread : containerCreate env d x nets vols pci run s = (.raise e, s') := by
    unfold containerCreate
    change andThen _ _ s = _
    unfold andThen
    rw [hrun]
  unfold HandlesFailure
  rw [hthread]
  obtain ⟨h, hU⟩ | ⟨⟨r', hr', hcreating⟩, hU⟩ := hverdict
  · exact ⟨fun _ => hU, fun _ => ⟨e, rfl, h⟩⟩
  · refine ⟨?_, fun h => absurd hU h⟩
    rintro ⟨e', -, h⟩
    obtain ⟨r'', hr'', hfailed⟩ := h.status
    dsimp only at hr''
    rw [hr', Option.some.injEq] at hr''
    subst hr''
    rw [hcreating] at hfailed
    cases hb : r.autoRemove <;> rw [hb] at hfailed <;> cases hfailed

/-- A node on which one call raises. -/
def faulty (c : Call) : Env :=
  { answer := fun _ c' => if c' = c then .raise { cls := .other } else .ok }

theorem faulty_oneFault {c : Call} (hc : ∀ u row, c ≠ .save u row) :
    OneFault (faulty c) c { cls := .other } := ⟨fun _ _ => rfl, hc⟩

/-- A container as the API hands it to its node. -/
def creatingRow : Record := { status := .creating, host := some "node", cpu := 1 }

/-- A pull that fails is handled. -/
theorem handlesFailure_pull :
    HandlesFailure (faulty (.pullImage 1)) (defaultDrivers (faulty (.pullImage 1))) (.container 1)
      [{ network := 1 }] [] false true (.pullImage 1) { cls := .other } false
      (ofRows [(1, creatingRow)]) := by
  have hfault : OneFault (faulty (.pullImage 1)) (.pullImage 1) { cls := .other } :=
    faulty_oneFault fun _ _ h => Call.noConfusion h
  have hmember : ∀ m, Subject.container 1 ≠ .member m := fun _ h => Subject.noConfusion h
  refine (handlesFailure_iff (r := creatingRow) (defaultDrivers_lawful _) hfault hmember ?_ rfl rfl
    rfl ⟨_, rfl⟩).mpr ?_
  · intro v hv
    cases List.mem_singleton.mp hv
    rfl
  · rintro ⟨-, h | ⟨h, -⟩⟩ <;> exact h

/-- An image name that cannot be parsed leaves the container in Creating. -/
theorem parse_failure_not_handled :
    ¬ HandlesFailure (faulty (.parseImageName 1)) (defaultDrivers (faulty (.parseImageName 1)))
      (.container 1) [{ network := 1 }] [] false true (.parseImageName 1) { cls := .other } false
      (ofRows [(1, creatingRow)]) := by
  rintro ⟨e, -, h⟩
  have hrow : ((containerCreate (faulty (.parseImageName 1))
      (defaultDrivers (faulty (.parseImageName 1))) (.container 1) [{ network := 1 }] [] false true
      (ofRows [(1, creatingRow)])).2.db 1).map (·.status) = some .creating := by decide
  obtain ⟨r, hr, hfailed⟩ := h.status
  obtain ⟨r', hr', hcreating⟩ := Option.map_eq_some_iff.mp hrow
  cases Option.some.inj (hr.symm.trans hr')
  cases hfailed.symm.trans hcreating

end Manager

end Zun
