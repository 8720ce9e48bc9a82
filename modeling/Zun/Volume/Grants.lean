import Mathlib.Data.List.Nodup
import Zun.Effect.Run
import Zun.Volume.Nfs

/-!
# Grants and mounts

The node is to hold an access rule on a share exactly while an export of the share is mounted on
it.  An attach grants first and mounts after, and when the mount fails the manager deletes the
volume again, since the API makes every shared filesystem one that goes with its capsule.  A
detach unmounts, and looks in the mount table whether the export has another mount.

It looks for the export and not for the share.  So the law holds in every run in which a share is
only ever mounted by one of its exports, and breaks with the second one.
-/

namespace Zun

open Effect Prog

namespace Volume

open Mounts

/-! ## Runs -/

variable (env : Env)

/-- `_attach_volume` of the manager. -/
def managerAttach (v : Mapping) : Prog Node Failure Unit :=
  reraising (nfsAttach env v) fun _ => onlyIf v.autoRemove (swallow (nfsDelete env v))

/-- What the manager does with a mapping. -/
inductive Op where
  | attach (v : Mapping)
  | detach (v : Mapping)
  | delete (v : Mapping)

def Op.mapping : Op → Mapping
  | .attach v | .detach v | .delete v => v

def Op.run : Op → Prog Node Failure Unit
  | .attach v => managerAttach env v
  | .detach v => nfsDetach env v
  | .delete v => nfsDelete env v

/-- The node as it is when the operation comes to withdraw the grant, if it does. -/
def Op.withdraws : Op → Node → Option Node
  | .attach v, s =>
      match nfsAttach env v s with
      | (.raise _, s₁) =>
          if v.autoRemove then some (detachPath env (getMountpoint env v.volume) s₁).2 else none
      | _ => none
  | .detach v, s | .delete v, s => some (detachPath env (getMountpoint env v.volume) s).2

/-- A call that was refused, other than a look at the mount table. -/
def failedCall (x : Call × Option Failure) : Bool := x.2.isSome && x.1 != .readMounts

/-- Such a call was made between the two nodes. -/
def failedSince (s s' : Node) : Bool :=
  (s'.log.take (s'.log.length - s.log.length)).any failedCall

/-- The shares whose revoke failed in the operation. -/
def Op.excused (op : Op) (s : Node) : List String :=
  match op.withdraws env s with
  | none => []
  | some s₁ =>
      if failedSince s₁ (withdraw env op.mapping.options s₁).2 then
        op.mapping.options.shareId.toList
      else []

/-- The node in a run, with the shares for which a revoke has failed so far. -/
structure Run where
  node : Node
  excused : List String

/-- An operation, and how its calls are answered. -/
structure Event where
  env : Env
  op : Op

def Event.step (e : Event) (x : Run) : Run where
  node := (e.op.run e.env x.node).2
  excused := e.op.excused e.env x.node ++ x.excused

/-! ## The law -/

/-- What does not change in a run: the share an export belongs to, the export that a share is
mounted by, the contents of the volumes, and the node. -/
structure Site where
  shareOf : String → Option String
  only : String → String
  contents : String → Options
  localIp : String → String
  volumeDir : NodePath

/-- The address of the node that the rule of a share names. -/
def Site.ip (site : Site) (share : String) : String := site.localIp (serverOf (site.only share))

variable (site : Site)

/-- An export of the share is mounted. -/
def Mounted (share : String) (s : Node) : Prop :=
  ∃ m ∈ s.mounts, site.shareOf m.source = some share

/-- The node holds a rule on the share. -/
def HasRule (share : String) (s : Node) : Prop :=
  ∃ r ∈ s.rules, r.share = share ∧ r.accessTo = site.ip share

/-- Rules and mounts agree, a failed revoke excepted. -/
structure Agreed (x : Run) : Prop where
  granted : ∀ share, Mounted site share x.node → HasRule site share x.node
  mounted : ∀ share, HasRule site share x.node → Mounted site share x.node ∨ share ∈ x.excused

/-- The mapping is that of its volume, and names its share and the one export of it. -/
structure Names (v : Mapping) (share : String) : Prop where
  provider : v.provider = .nfs
  contents : v.options = site.contents v.volume
  shareId : v.options.shareId = some share
  «export» : v.options.export = some (site.only share)
  shareOf : site.shareOf (site.only share) = some share

/-- No call is refused, and a rule is active when it is asked about. -/
structure Smooth (env : Env) : Prop where
  answered : ∀ n c, env.refuse n c = none
  active : ∀ n, env.ruleState n = .active
  polls : 0 < env.polls

/-- What a step has to meet. -/
structure Fair (e : Event) (_ : Run) : Prop where
  named : ∃ share, Names site e.op.mapping share
  localIp : e.env.localIp = site.localIp
  volumeDir : e.env.volumeDir = site.volumeDir
  readable : ∀ n, e.env.refuse n .readMounts = none
  cleaned : ∀ v, e.op = .attach v → v.autoRemove = true ∨ Smooth e.env

/-- A node that has nothing of a share. -/
structure Started (x : Run) : Prop where
  unmounted : ∀ m ∈ x.node.mounts,
    site.shareOf m.source = none ∧ ∀ vol, m.path ≠ site.volumeDir ++ [vol]
  unruled : ∀ share, ¬ HasRule site share x.node
  ids : (x.node.rules.map (·.id)).Nodup
  fresh : ∀ r ∈ x.node.rules, r.id < x.node.nextRule

/-- The mounts and the rules are in order. -/
structure Kept (s : Node) : Prop where
  only : ∀ m ∈ s.mounts, ∀ share, site.shareOf m.source = some share → m.source = site.only share
  paths : ∀ m ∈ s.mounts, ∀ vol, m.path = site.volumeDir ++ [vol] →
    (site.contents vol).export = some m.source
  ids : (s.rules.map (·.id)).Nodup
  fresh : ∀ r ∈ s.rules, r.id < s.nextRule

variable {env site} {s s' : Node} {v : Mapping} {share : String}

/-! ## What a grant does -/

/-- The steps that move neither the mounts nor the rules. -/
structure Unmoved (s s' : Node) : Prop where
  mounts : s'.mounts = s.mounts
  rules : s'.rules = s.rules
  nextRule : s'.nextRule = s.nextRule

instance : IsPreorder Node Unmoved where
  refl _ := ⟨rfl, rfl, rfl⟩
  trans _ _ _ h h' := ⟨h'.mounts.trans h.mounts, h'.rules.trans h.rules, h'.nextRule.trans h.nextRule⟩

theorem unmoved_call (c : Call) : Within Unmoved (call env c) :=
  within_call (fun _ => ⟨rfl, rfl, rfl⟩) fun _ => ⟨rfl, rfl, rfl⟩

theorem unmoved_ask {α : Type} (c : Call) (f : Node → α) : Within Unmoved (ask env c f) :=
  (unmoved_call c).bind fun _ => within_read _

theorem unmoved_waitActive (share ip : String) (n : Nat) :
    Within Unmoved (waitActive env share ip n) := by
  induction n with
  | zero => exact within_raise _
  | succ n ih =>
      refine (unmoved_ask _ _).bind fun rules => (within_read _).bind fun state => within_ite ?_ ih
      cases state with
      | active => exact within_pure _
      | error => exact within_raise _
      | pending => exact ih

theorem unmoved_refuseUnlessNodeIsOurs : Within Unmoved (refuseUnlessNodeIsOurs env) :=
  Within.onlyIf (within_raise _)

theorem unmoved_refuseIfGrantsAreWiderThanHosts (share : String) :
    Within Unmoved (refuseIfGrantsAreWiderThanHosts env share) :=
  (unmoved_ask _ _).bind fun _ => Within.onlyIf (within_raise _)

/-- The rules after a grant: as they were, or one more. -/
def Granting (share ip : String) (s s' : Node) : Prop :=
  (s'.rules = s.rules ∧ s'.nextRule = s.nextRule) ∨
    (s'.rules = ⟨s.nextRule, share, "ip", ip⟩ :: s.rules ∧ s'.nextRule = s.nextRule + 1)

theorem Granting.after {ip : String} {s₁ : Node} (h : Unmoved s s₁) (h' : Granting share ip s₁ s') :
    Granting share ip s s' := by
  unfold Granting at h' ⊢
  rwa [h.rules, h.nextRule] at h'

/-- The share has a rule for the address. -/
def Ruled (share ip : String) (s : Node) : Prop := ∃ r ∈ s.rules, r.share = share ∧ r.accessTo = ip

theorem ruled_of_any {ip : String}
    (h : ((s.rules.filter (·.share = share)).any (·.accessTo = ip)) = true) : Ruled share ip s := by
  obtain ⟨r, hr, hip⟩ := List.any_eq_true.mp h
  obtain ⟨hmem, hshare⟩ := List.mem_filter.mp hr
  exact ⟨r, hmem, by simpa using hshare, by simpa using hip⟩

theorem wp_grant (share ip : String) :
    wp (grant env share ip) (fun r s' => s'.mounts = s.mounts ∧ Granting share ip s s' ∧
      (r = .ok () → Ruled share ip s')) s := by
  unfold grant accessRules ask
  rw [wp_bind, wp_bind]
  refine wp_call (fun _ => ?_) fun e _ => ⟨rfl, .inl ⟨rfl, rfl⟩, by simp⟩
  rw [seqPost_ok, wp_read, seqPost_ok, wp_ite]
  split
  · rename_i hany
    refine wp_mono ((unmoved_waitActive share ip _).wp _) fun r s' h => ?_
    refine ⟨h.mounts, .inl ⟨h.rules, h.nextRule⟩, fun _ => ?_⟩
    obtain ⟨q, hq, hshare, hip⟩ := ruled_of_any hany
    exact ⟨q, h.rules ▸ hq, hshare, hip⟩
  · rw [wp_bind]
    refine wp_call (fun _ => ?_) fun e _ => ⟨rfl, .inl ⟨rfl, rfl⟩, by simp⟩
    rw [seqPost_ok]
    refine wp_mono ((unmoved_waitActive share ip _).wp _) fun r s' h => ?_
    refine ⟨h.mounts, .inr ⟨h.rules, h.nextRule⟩, fun _ => ?_⟩
    exact ⟨⟨s.nextRule, share, "ip", ip⟩, h.rules ▸ List.mem_cons_self .., rfl, rfl⟩

/-! ## What an attach does -/

theorem ends_call (c : Call) (effect : Node → Node) : Ends (call env c effect) := by
  intro s
  unfold call
  split <;> simp

theorem ends_ask {α : Type} (c : Call) (f : Node → α) : Ends (ask env c f) :=
  (ends_call _ _).bind fun _ => ends_read _

theorem ends_waitActive (share ip : String) (n : Nat) : Ends (waitActive env share ip n) := by
  induction n with
  | zero => exact ends_raise _
  | succ n ih =>
      refine (ends_ask _ _).bind fun rules => (ends_read _).bind fun state => ends_ite ?_ ih
      cases state with
      | active => exact ends_pure _
      | error => exact ends_raise _
      | pending => exact ih

theorem ends_grantAccess (v : Mapping) («export» : String) : Ends (grantAccess env v «export») := by
  unfold grantAccess
  cases v.options.shareId with
  | none => exact ends_pure _
  | some share =>
      refine Ends.bind ?_ fun _ => (ends_ask _ _).bind fun ip => ?_
      · exact (ends_ask _ _).bind fun _ => Ends.onlyIf (ends_raise _)
      · refine (ends_ask _ _).bind fun rules => ends_ite (ends_waitActive _ _ _) ?_
        exact (ends_call _ _).bind fun _ => ends_waitActive _ _ _

theorem ends_ismount (p : NodePath) : Ends (ismount env p) :=
  (ends_ask _ _).tryExcept fun _ => ends_pure _

theorem ends_attachPath (v : Mapping) («export» : String) : Ends (attachPath env v «export») := by
  refine (ends_call _ _).bind fun _ => Ends.bind ?_ fun _ => ?_
  · refine (ends_ismount _).bind fun mounted =>
      ends_ite (Ends.tryExcept ?_ fun e => ?_) ((ends_call _ _).tryExcept fun e => ?_)
    · refine (ends_ask _ _).bind fun mounts => ?_
      split
      · exact ends_pure _
      · exact Ends.onlyIf (ends_raise _)
    · exact ends_ite (ends_pure _) (ends_raise _)
    · exact ends_ite (ends_raise _) (ends_raise _)
  · refine Ends.onlyIf (Ends.tryExcept ?_ fun _ => ends_ret _)
    exact (ends_call _ _).bind fun _ => ends_call _ _

/-- What an attach of a mapping that names its share leaves. -/
structure Attached (env : Env) (site : Site) (v : Mapping) (share : String) (s : Node)
    (r : Result Failure Unit) (s' : Node) : Prop where
  rules : Granting share (site.ip share) s s'
  mounts : s'.mounts = s.mounts ∨ (HasRule site share s' ∧ s'.mounts =
    ⟨site.only share, env.exported (site.only share), getMountpoint env v.volume⟩ :: s.mounts)
  done : r = .ok () → HasRule site share s' ∧ Mounted site share s'
  ended : r ≠ .halt

theorem Attached.early {r : Result Failure Unit} (h : Unmoved s s') (hr : r ≠ .ok ())
    (hend : r ≠ .halt) : Attached env site v share s r s' where
  rules := .inl ⟨h.rules, h.nextRule⟩
  mounts := .inl h.mounts
  done hok := absurd hok hr
  ended := hend

theorem unmoved_applyFsGroup (o : Options) (p : NodePath) : Within Unmoved (applyFsGroup env o p) := by
  refine Within.onlyIf (Within.swallow ?_)
  exact (unmoved_call _).bind fun _ => unmoved_call _

theorem unmoved_validateMounted («export» : String) (p : NodePath) :
    Within Unmoved (validateMounted env p «export») := by
  refine Within.tolerate ?_
  refine (unmoved_ask _ _).bind fun mounts => ?_
  split
  · exact within_pure _
  · exact Within.onlyIf (within_raise _)

/-- The export is mounted on the path when this returns. -/
theorem wp_mountOrValidate {«export» : String} {p : NodePath} (hp : p ≠ [])
    (hown : ∀ m ∈ s.mounts, m.path = p → m.source = «export») :
    wp (mountOrValidate env «export» p) (fun r s' => s'.rules = s.rules ∧ s'.nextRule = s.nextRule ∧
      (s'.mounts = s.mounts ∨ s'.mounts = ⟨«export», env.exported «export», p⟩ :: s.mounts) ∧
      (r = .ok () → ∃ m ∈ s'.mounts, m.source = «export»)) s := by
  unfold mountOrValidate
  rw [wp_bind]
  refine wp_ismount ?_
  rw [seqPost_ok, wp_ite]
  split
  · rename_i hmounted
    refine wp_mono ((unmoved_validateMounted «export» p).wp _) fun r s' h => ?_
    refine ⟨h.rules, h.nextRule, .inl h.mounts, fun _ => ?_⟩
    obtain ⟨m, hm, hpath⟩ := mem_of_differs hp (Bool.and_eq_true _ _ ▸ hmounted).2
    exact ⟨m, h.mounts ▸ hm, hown m hm hpath⟩
  · rw [mountExport, wp_tryExcept]
    refine wp_call (fun _ => ?_) fun e _ => ?_
    · exact ⟨rfl, rfl, .inr rfl, fun _ => ⟨_, List.mem_cons_self .., rfl⟩⟩
    · rw [exceptPost_raise, wp_ite]
      split
      · rw [wp_raise]
        exact ⟨rfl, rfl, .inl rfl, by simp⟩
      · rw [wp_raise]
        exact ⟨rfl, rfl, .inl rfl, by simp⟩

theorem Names.body (h : Names site v share) : nfsAttach env v = (do
    refuseUnlessNodeIsOurs env
    grantAccess env v (site.only share)
    attachPath env v (site.only share)) := by
  simp [nfsAttach, validateVolumeProvider, h.provider, h.export]

theorem Kept.own (h : Kept site s) (hname : Names site v share) (m : Mount String)
    (hm : m ∈ s.mounts) (hpath : m.path = site.volumeDir ++ [v.volume]) :
    m.source = site.only share := by
  have hexport := h.paths m hm v.volume hpath
  rw [← hname.contents, hname.export] at hexport
  exact (Option.some.inj hexport).symm

/-- The second half of an attach. -/
theorem wp_attachPath (hname : Names site v share) (hdir : env.volumeDir = site.volumeDir)
    (h : Kept site s) :
    wp (attachPath env v (site.only share)) (fun r s' => s'.rules = s.rules ∧
      s'.nextRule = s.nextRule ∧ (s'.mounts = s.mounts ∨ s'.mounts =
        ⟨site.only share, env.exported (site.only share), getMountpoint env v.volume⟩ :: s.mounts) ∧
      (r = .ok () → ∃ m ∈ s'.mounts, m.source = site.only share)) s := by
  unfold attachPath ensureTree
  rw [wp_bind]
  refine wp_call (fun _ => ?_) fun e _ => ⟨rfl, rfl, .inl rfl, by simp⟩
  rw [seqPost_ok, wp_bind]
  refine wp_mono (wp_mountOrValidate (by simp [getMountpoint]) fun m hm hpath => ?_) ?_
  · exact h.own hname m hm (by rw [hpath, getMountpoint, hdir])
  rintro r s₁ ⟨hrules, hnext, hmounts, hdone⟩
  cases r with
  | raise e => exact ⟨hrules, hnext, hmounts, by simp⟩
  | halt => exact ⟨hrules, hnext, hmounts, by simp⟩
  | ok a =>
      rw [seqPost_ok]
      refine wp_mono ((unmoved_applyFsGroup v.options _).wp s₁) fun r s' h' => ?_
      refine ⟨h'.rules.trans hrules, h'.nextRule.trans hnext, ?_, fun _ => ?_⟩
      · rw [h'.mounts]
        exact hmounts
      · rw [h'.mounts]
        exact hdone rfl

theorem wp_grantAccess (hname : Names site v share) (hip : env.localIp = site.localIp) :
    wp (grantAccess env v (site.only share)) (fun r s' => s'.mounts = s.mounts ∧
      Granting share (site.ip share) s s' ∧ (r = .ok () → HasRule site share s')) s := by
  have hstart {α : Type} {p : Prog Node Failure α} {f : α → Prog Node Failure Unit}
      (hp : Within Unmoved p)
      (hf : ∀ a s, wp (f a) (fun r s' => s'.mounts = s.mounts ∧
        Granting share (site.ip share) s s' ∧ (r = .ok () → HasRule site share s')) s) (s : Node) :
      wp (p >>= f) (fun r s' => s'.mounts = s.mounts ∧
        Granting share (site.ip share) s s' ∧ (r = .ok () → HasRule site share s')) s := by
    rw [wp_bind]
    refine wp_mono (hp.wp s) fun r s₁ h => ?_
    cases r with
    | raise e => exact ⟨h.mounts, .inl ⟨h.rules, h.nextRule⟩, by simp⟩
    | halt => exact ⟨h.mounts, .inl ⟨h.rules, h.nextRule⟩, by simp⟩
    | ok a =>
        rw [seqPost_ok]
        refine wp_mono (hf a s₁) ?_
        rintro r s' ⟨hmounts, hrules, hdone⟩
        exact ⟨hmounts.trans h.mounts, hrules.after h, hdone⟩
  unfold grantAccess
  rw [hname.shareId]
  refine hstart (unmoved_refuseIfGrantsAreWiderThanHosts share) (fun _ s => ?_) s
  unfold localIpFor ask
  rw [wp_bind, wp_bind]
  refine wp_call (fun _ => ?_) fun e _ => ⟨rfl, .inl ⟨rfl, rfl⟩, by simp⟩
  rw [seqPost_ok, wp_read, seqPost_ok, hip]
  exact wp_grant share (site.ip share)

theorem Kept.granting (h : Kept site s) (hmounts : s'.mounts = s.mounts)
    (hrules : Granting share (site.ip share) s s') : Kept site s' where
  only := hmounts ▸ h.only
  paths := hmounts ▸ h.paths
  ids := by
    rcases hrules with ⟨hrules, -⟩ | ⟨hrules, -⟩
    · rw [hrules]
      exact h.ids
    · rw [hrules, List.map_cons, List.nodup_cons]
      refine ⟨fun hmem => ?_, h.ids⟩
      obtain ⟨r, hr, hid⟩ := List.mem_map.mp hmem
      have hlt := h.fresh r hr
      simp only at hid
      omega
  fresh := by
    rcases hrules with ⟨hrules, hnext⟩ | ⟨hrules, hnext⟩
    · rw [hrules, hnext]
      exact h.fresh
    · rw [hrules, hnext]
      intro r hr
      rcases List.mem_cons.mp hr with rfl | hr
      · exact Nat.lt_succ_self _
      · exact Nat.lt_succ_of_lt (h.fresh r hr)

theorem wp_nfsAttach (hname : Names site v share) (hip : env.localIp = site.localIp)
    (hdir : env.volumeDir = site.volumeDir) (h : Kept site s) :
    wp (nfsAttach env v) (Attached env site v share s) s := by
  rw [hname.body]
  have hours : Ends (refuseUnlessNodeIsOurs env) := Ends.onlyIf (ends_raise _)
  rw [wp_bind]
  refine wp_mono (wp_and (unmoved_refuseUnlessNodeIsOurs.wp s) (hours.wp s)) ?_
  rintro r s₀ ⟨h₀, hend⟩
  cases r with
  | raise e => exact .early h₀ (by simp) (by simp)
  | halt => exact absurd rfl hend
  | ok a =>
      rw [seqPost_ok, wp_bind]
      refine wp_mono (wp_and (wp_grantAccess hname hip) ((ends_grantAccess v _).wp s₀)) ?_
      rintro r s₁ ⟨⟨hmounts, hrules, hruled⟩, hend⟩
      have hrules : Granting share (site.ip share) s s₁ := hrules.after h₀
      have hmounts : s₁.mounts = s.mounts := hmounts.trans h₀.mounts
      cases r with
      | raise e => exact ⟨hrules, .inl hmounts, by simp, by simp⟩
      | halt => exact absurd rfl hend
      | ok a =>
          rw [seqPost_ok]
          refine wp_mono (wp_and (wp_attachPath hname hdir (h.granting hmounts hrules))
            ((ends_attachPath v _).wp s₁)) ?_
          rintro r s' ⟨⟨hrules', hnext', hmounts', hdone⟩, hend⟩
          have hstill : HasRule site share s' := by
            unfold HasRule
            rw [hrules']
            exact hruled rfl
          refine ⟨?_, ?_, fun hr => ⟨hstill, ?_⟩, hend⟩
          · unfold Granting at hrules ⊢
            rw [hrules', hnext']
            exact hrules
          · rw [← hmounts]
            rcases hmounts' with hsame | hnew
            · exact .inl hsame
            · exact .inr ⟨hstill, hnew⟩
          · obtain ⟨m, hm, hsource⟩ := hdone hr
            exact ⟨m, hm, hsource ▸ hname.shareOf⟩

/-! ## What a detach does -/

theorem failedSince_of_log {new : List (Call × Option Failure)} (h : s'.log = new ++ s.log) :
    failedSince s s' = new.any failedCall := by
  unfold failedSince
  rw [h]
  simp

theorem failedSince_last {s₁ : Node} (old : List (Call × Option Failure))
    {new : List (Call × Option Failure)} (h₁ : s₁.log = old ++ s.log) (h : s'.log = new ++ s₁.log)
    (hfail : failedSince s s' = false) : new.any failedCall = false := by
  rw [h₁, ← List.append_assoc] at h
  rw [failedSince_of_log h, List.any_append, Bool.or_eq_false_iff] at hfail
  exact hfail.1

/-- What the denials of some rules leave. -/
structure Denied (ids : List Nat) (s s' : Node) : Prop where
  mounts : s'.mounts = s.mounts
  nextRule : s'.nextRule = s.nextRule
  fewer : s'.rules.Sublist s.rules
  others : ∀ r ∈ s.rules, r.id ∉ ids → r ∈ s'.rules
  log : ∃ new, s'.log = new ++ s.log ∧ (new.any failedCall = false → ∀ r ∈ s'.rules, r.id ∉ ids)

theorem Denied.none (s : Node) : Denied [] s s where
  mounts := rfl
  nextRule := rfl
  fewer := List.Sublist.refl _
  others _ hr _ := hr
  log := ⟨[], rfl, by simp⟩

theorem Denied.refused (i : Nat) (ids : List Nat) (s : Node) {e : Failure}
    (h : env.refuse s.tick (.denyAccess i) = some e) :
    Denied (i :: ids) s (s.turn env (.denyAccess i)) where
  mounts := rfl
  nextRule := rfl
  fewer := List.Sublist.refl _
  others _ hr _ := hr
  log := ⟨[(.denyAccess i, some e)], by simp [Node.turn, h], by simp [failedCall]⟩

theorem Denied.cons {i : Nat} {ids : List Nat} {s₁ : Node} (h : Denied [i] s s₁)
    (h' : Denied ids s₁ s') : Denied (i :: ids) s s' where
  mounts := h'.mounts.trans h.mounts
  nextRule := h'.nextRule.trans h.nextRule
  fewer := h'.fewer.trans h.fewer
  others r hr hid := by
    rw [List.mem_cons, not_or] at hid
    exact h'.others r (h.others r hr (by simpa using hid.1)) hid.2
  log := by
    obtain ⟨new, hlog, hgone⟩ := h.log
    obtain ⟨new', hlog', hgone'⟩ := h'.log
    refine ⟨new' ++ new, by rw [hlog', hlog, List.append_assoc], fun hfail r hr => ?_⟩
    rw [List.any_append, Bool.or_eq_false_iff] at hfail
    have hfirst := hgone hfail.2 r (h'.fewer.subset hr)
    rw [List.mem_singleton] at hfirst
    simp [hfirst, hgone' hfail.1 r hr]

theorem wp_denyEach (rs : List Rule) :
    ∀ s, wp (forEach rs fun r => deny env r.id) (fun _ s' => Denied (rs.map (·.id)) s s') s := by
  induction rs with
  | nil => exact Denied.none
  | cons q rs ih =>
      intro s
      rw [forEach, wp_andThen, deny, wp_tryExcept]
      refine wp_call (fun hok => ?_) fun e hraise => ?_
      · rw [exceptPost_ok, seqPost_ok]
        refine wp_mono (ih _) fun r s' h => ?_
        have hone : Denied [q.id] s { s.turn env (.denyAccess q.id) with
            rules := s.rules.filter (·.id ≠ q.id) } :=
          { mounts := rfl
            nextRule := rfl
            fewer := List.filter_sublist
            others := fun r hr hid => List.mem_filter.mpr ⟨hr, by simpa using hid⟩
            log := ⟨[(.denyAccess q.id, none)], by simp [Node.turn, hok],
              fun _ r hr => by simpa using (List.mem_filter.mp hr).2⟩ }
        exact hone.cons h
      · rw [exceptPost_raise, wp_ite]
        split
        · rw [wp_pure, seqPost_ok]
          refine wp_mono (ih _) fun r s' h => ?_
          exact (Denied.refused q.id [] s hraise).cons h
        · rw [wp_raise]
          exact Denied.refused q.id _ s hraise

/-- What a withdrawal leaves. -/
structure Withdrawn (site : Site) (share : String) (s s' : Node) : Prop where
  mounts : s'.mounts = s.mounts
  nextRule : s'.nextRule = s.nextRule
  fewer : s'.rules.Sublist s.rules
  others : ∀ r ∈ s.rules, r.share ≠ share → r ∈ s'.rules
  kept : (∃ m ∈ s.mounts, m.source = site.only share) → s'.rules = s.rules
  gone : (¬ ∃ m ∈ s.mounts, m.source = site.only share) → failedSince s s' = false →
    ¬ HasRule site share s'

theorem turn_log {c : Call} {e : Failure} (h : env.refuse s.tick c = some e) :
    (s.turn env c).log = (c, some e) :: s.log := by
  rw [← h]
  rfl

/-- A call that was refused leaves nothing to be said of the rules. -/
theorem Withdrawn.failed {c : Call} {e : Failure} (hc : c ≠ .readMounts)
    (hmounts : s'.mounts = s.mounts) (hnext : s'.nextRule = s.nextRule)
    (hrules : s'.rules = s.rules) (old : List (Call × Option Failure))
    (hlog : s'.log = (c, some e) :: old ++ s.log) : Withdrawn site share s s' where
  mounts := hmounts
  nextRule := hnext
  fewer := hrules ▸ List.Sublist.refl _
  others := fun r hr _ => hrules ▸ hr
  kept _ := hrules
  gone _ hfail := by
    rw [failedSince_of_log hlog] at hfail
    simp [failedCall, hc] at hfail

theorem wp_withdraw (hname : Names site v share) (hip : env.localIp = site.localIp)
    (hread : ∀ n, env.refuse n .readMounts = none) (hids : (s.rules.map (·.id)).Nodup) :
    wp (withdraw env v.options) (fun _ s' => Withdrawn site share s s') s := by
  unfold withdraw
  rw [hname.shareId, hname.export]
  simp only
  rw [wp_bind, exportStillMounted, wp_tryExcept, ask, wp_bind]
  refine wp_call (fun hok => ?_) fun e hraise => by simp [hread] at hraise
  rw [seqPost_ok, wp_read, exceptPost_ok, seqPost_ok]
  refine wp_onlyIf (fun hgone => ?_) fun hstill => ?_
  swap
  · have hmount : ∃ m ∈ s.mounts, m.source = site.only share := by
      rw [Bool.not_eq_false, List.any_eq_true] at hstill
      obtain ⟨m, hm, hsource⟩ := hstill
      exact ⟨m, hm, by simpa using hsource⟩
    exact ⟨rfl, rfl, List.Sublist.refl _, fun _ hr _ => hr, fun _ => rfl,
      fun hno => absurd hmount hno⟩
  have hnone : ¬ ∃ m ∈ s.mounts, m.source = site.only share := by
    rintro ⟨m, hm, hsource⟩
    have hfalse := List.any_eq_false.mp hgone m hm
    simp [hsource] at hfalse
  rw [wp_bind, localIpFor, ask, wp_bind]
  refine wp_call (fun hok' => ?_) fun e hraise => ?_
  swap
  · exact .failed (by simp) rfl rfl rfl [_] (turn_log hraise)
  rw [seqPost_ok, wp_read, seqPost_ok, revoke, wp_bind, accessRules, ask, wp_bind]
  refine wp_call (fun hok'' => ?_) fun e hraise => ?_
  swap
  · exact .failed (by simp) rfl rfl rfl [_, _] (turn_log hraise)
  rw [seqPost_ok, wp_read, seqPost_ok]
  refine wp_mono (wp_denyEach _ _) fun r s' h => ?_
  refine ⟨h.mounts, h.nextRule, h.fewer, fun r hr hshare => h.others r hr fun hid => ?_,
    fun hmount => absurd hmount hnone, fun _ hfail => ?_⟩
  · -- Another rule of the share with this id would be the same rule.
    obtain ⟨q, hq, heq⟩ := List.mem_map.mp hid
    obtain ⟨hq, -⟩ := List.mem_filter.mp hq
    obtain ⟨hmem, hq⟩ := List.mem_filter.mp hq
    have hsame : q = r := List.inj_on_of_nodup_map hids hmem hr heq
    exact hshare (hsame ▸ by simpa using hq)
  · rintro ⟨q, hq, hshare, haddr⟩
    obtain ⟨new, hlog, hdenied⟩ := h.log
    refine hdenied (failedSince_last [_, _, _] rfl hlog hfail) q hq (List.mem_map.mpr ⟨q, ?_, rfl⟩)
    refine List.mem_filter.mpr ⟨List.mem_filter.mpr ⟨h.fewer.subset hq, by simpa using hshare⟩, ?_⟩
    simpa [hip, Site.ip] using haddr

/-- What the unmount of a detach leaves. -/
structure Unmounted (p : NodePath) (s s' : Node) : Prop where
  fewer : ∀ m ∈ s'.mounts, m ∈ s.mounts
  others : ∀ m ∈ s.mounts, m.path ≠ p → m ∈ s'.mounts
  rules : s'.rules = s.rules
  nextRule : s'.nextRule = s.nextRule

theorem leftMounts_cases (p : NodePath) (s : Node) :
    leftMounts env p s = s.mounts ∨ leftMounts env p s = unmount s.mounts p := by
  unfold leftMounts
  split
  · exact .inr rfl
  · exact .inl rfl

theorem wp_unmounted (p : NodePath) :
    wp (detachPath env p) (fun r s' => r = .ok () ∧ Unmounted p s s') s := by
  have hleft (s' : Node) (hmounts : s'.mounts = leftMounts env p s) (hrules : s'.rules = s.rules)
      (hnext : s'.nextRule = s.nextRule) : Unmounted p s s' := by
    refine ⟨fun m hm => ?_, fun m hm hpath => ?_, hrules, hnext⟩
    · rw [hmounts] at hm
      rcases leftMounts_cases p s with h | h
      · exact h ▸ hm
      · exact List.mem_of_mem_eraseP (h ▸ hm)
    · rw [hmounts]
      rcases leftMounts_cases p s with h | h
      · exact h ▸ hm
      · rw [h, unmount, List.mem_eraseP_of_neg (by simpa using hpath)]
        exact hm
  refine wp_detachPath (fun _ log => ?_) fun _ log => ?_
  · exact ⟨rfl, hleft _ rfl rfl rfl⟩
  · exact ⟨rfl, hleft _ rfl rfl rfl⟩

theorem detachLocked_run (v : Mapping) (s : Node) :
    detachLocked env v s =
      withdraw env v.options (detachPath env (getMountpoint env v.volume) s).2 := by
  have hok : (detachPath env (getMountpoint env v.volume) s).1 = .ok () := (wp_unmounted _).1
  unfold detachLocked
  change andThen _ _ s = _
  unfold andThen
  split
  · rename_i h
    rw [h]
  · rename_i h
    rw [h] at hok
    cases hok
  · rename_i h
    rw [h] at hok
    cases hok

/-- Rules and mounts agree, but for a rule on one share. -/
structure Almost (site : Site) (share : String) (excused : List String) (s : Node) : Prop where
  granted : ∀ share, Mounted site share s → HasRule site share s
  mounted : ∀ share', share' ≠ share → HasRule site share' s →
    Mounted site share' s ∨ share' ∈ excused

theorem Agreed.almost {x : Run} (h : Agreed site x) (share : String) :
    Almost site share x.excused x.node := ⟨h.granted, fun share' _ => h.mounted share'⟩

/-- The shares that a withdrawal excuses. -/
def excusedBy (share : String) (s s' : Node) : List String :=
  if failedSince s s' then [share] else []

section Detach

variable {s₁ : Node} {excused : List String}

theorem Kept.detached (h : Kept site s) (h₁ : ∀ m ∈ s'.mounts, m ∈ s.mounts)
    (hrules : s'.rules.Sublist s.rules) (hnext : s'.nextRule = s.nextRule) : Kept site s' where
  only m hm := h.only m (h₁ m hm)
  paths m hm := h.paths m (h₁ m hm)
  ids := h.ids.sublist (hrules.map _)
  fresh r hr := hnext ▸ h.fresh r (hrules.subset hr)

/-- A detach brings the rule of its share in order, and moves no other share. -/
theorem agreed_detached (hname : Names site v share) (hdir : env.volumeDir = site.volumeDir)
    (hkept : Kept site s) (h : Almost site share excused s)
    (h₁ : Unmounted (getMountpoint env v.volume) s s₁) (h' : Withdrawn site share s₁ s') :
    Kept site s' ∧ Agreed site ⟨s', excusedBy share s₁ s' ++ excused⟩ := by
  have hfewer : ∀ m ∈ s'.mounts, m ∈ s.mounts := fun m hm => h₁.fewer m (h'.mounts ▸ hm)
  have hrules : s'.rules.Sublist s.rules := h₁.rules ▸ h'.fewer
  -- A mount on the path of the volume is of its share, so the others are still there.
  have hothers (share' : String) (hne : share' ≠ share) :
      Mounted site share' s → Mounted site share' s' := by
    rintro ⟨m, hm, hof⟩
    refine ⟨m, h'.mounts ▸ h₁.others m hm fun hpath => hne ?_, hof⟩
    have hsource := hkept.own hname m hm (by rw [hpath, getMountpoint, hdir])
    rw [hsource, hname.shareOf] at hof
    exact (Option.some.inj hof).symm
  have hmounted (share' : String) : Mounted site share' s' → Mounted site share' s := by
    rintro ⟨m, hm, hof⟩
    exact ⟨m, hfewer m hm, hof⟩
  have hruled (share' : String) (hne : share' ≠ share) :
      HasRule site share' s ↔ HasRule site share' s' := by
    constructor
    · rintro ⟨r, hr, hshare, hip⟩
      exact ⟨r, h'.others r (h₁.rules ▸ hr) (hshare ▸ hne), hshare, hip⟩
    · rintro ⟨r, hr, hrest⟩
      exact ⟨r, hrules.subset hr, hrest⟩
  refine ⟨hkept.detached hfewer hrules (h'.nextRule.trans h₁.nextRule), fun share' hm => ?_,
    fun share' hr => ?_⟩
  · by_cases hne : share' = share
    · subst hne
      obtain ⟨m, hmem, hof⟩ := hm
      have hsource := hkept.only m (hfewer m hmem) _ hof
      obtain ⟨r, hr, hrest⟩ := h.granted share' ⟨m, hfewer m hmem, hof⟩
      refine ⟨r, ?_, hrest⟩
      rw [h'.kept ⟨m, h'.mounts ▸ hmem, hsource⟩, h₁.rules]
      exact hr
    · exact (hruled share' hne).mp (h.granted share' (hmounted share' hm))
  · by_cases hne : share' = share
    · subst hne
      by_cases hstill : ∃ m ∈ s₁.mounts, m.source = site.only share'
      · obtain ⟨m, hm, hsource⟩ := hstill
        exact .inl ⟨m, h'.mounts ▸ hm, hsource ▸ hname.shareOf⟩
      · cases hfail : failedSince s₁ s' with
        | true => exact .inr (by simp [excusedBy, hfail])
        | false => exact absurd hr (h'.gone hstill hfail)
    · rcases h.mounted share' hne ((hruled share' hne).mpr hr) with hm | hex
      · exact .inl (hothers share' hne hm)
      · exact .inr (List.mem_append_right _ hex)

end Detach

/-! ## An attach that nothing fails in -/

theorem wp_call_smooth {c : Call} {effect : Node → Node} {Q : Result Failure Unit → Node → Prop}
    (h : Smooth env) (hQ : Q (.ok ()) (effect (s.turn env c))) : wp (call env c effect) Q s :=
  wp_call (fun _ => hQ) fun e hraise => by simp [h.answered] at hraise

theorem wp_waitActive_smooth {ip : String} {n : Nat} (h : Smooth env) (hn : 0 < n)
    (hruled : Ruled share ip s) : wp (waitActive env share ip n) (fun r _ => r = .ok ()) s := by
  obtain ⟨n, rfl⟩ := Nat.exists_eq_succ_of_ne_zero (Nat.ne_of_gt hn)
  unfold waitActive accessRules ask
  rw [wp_bind, wp_bind]
  refine wp_call_smooth h ?_
  rw [seqPost_ok, wp_read, seqPost_ok, wp_bind, wp_read, seqPost_ok, wp_ite, if_pos, h.active]
  · rfl
  · obtain ⟨r, hr, hshare, hip⟩ := hruled
    refine List.any_eq_true.mpr ⟨r, List.mem_filter.mpr ⟨hr, ?_⟩, ?_⟩
    · simpa using hshare
    · simpa using hip

theorem wp_grant_smooth (h : Smooth env) (share ip : String) :
    wp (grant env share ip) (fun r _ => r = .ok ()) s := by
  unfold grant accessRules ask
  rw [wp_bind, wp_bind]
  refine wp_call_smooth h ?_
  rw [seqPost_ok, wp_read, seqPost_ok, wp_ite]
  split
  · rename_i hany
    exact wp_waitActive_smooth h h.polls (ruled_of_any hany)
  · rw [wp_bind]
    refine wp_call_smooth h ?_
    rw [seqPost_ok]
    exact wp_waitActive_smooth h h.polls ⟨_, List.mem_cons_self .., rfl, rfl⟩

theorem wp_mountOrValidate_smooth {«export» : String} {p : NodePath} (h : Smooth env)
    (hown : ∀ m ∈ s.mounts, m.path = p → m.source = «export») :
    wp (mountOrValidate env «export» p) (fun r _ => r = .ok ()) s := by
  unfold mountOrValidate
  rw [wp_bind]
  refine wp_ismount ?_
  rw [seqPost_ok, wp_ite]
  split
  · rw [validateMounted, wp_tryExcept, wp_bind, ask, wp_bind]
    refine wp_call_smooth h ?_
    rw [seqPost_ok, wp_read, seqPost_ok]
    split
    · exact (rfl : (Result.ok () : Result Failure Unit) = _)
    · rename_i m hm
      have hpath := List.find?_some hm
      have hsource := hown m (List.mem_reverse.mp (List.mem_of_find?_eq_some hm)) (by simpa using hpath)
      exact wp_onlyIf (fun hne => absurd hsource hne) fun _ => rfl
  · rw [mountExport, wp_tryExcept]
    exact wp_call_smooth h rfl

theorem wp_attachPath_smooth (h : Smooth env) (hname : Names site v share)
    (hdir : env.volumeDir = site.volumeDir) (hkept : Kept site s) :
    wp (attachPath env v (site.only share)) (fun r _ => r = .ok ()) s := by
  unfold attachPath ensureTree
  rw [wp_bind]
  refine wp_call_smooth h ?_
  rw [seqPost_ok, wp_bind]
  refine wp_mono (wp_mountOrValidate_smooth h fun m hm hpath => ?_) ?_
  · exact hkept.own hname m hm (by rw [hpath, getMountpoint, hdir])
  rintro r s₁ rfl
  rw [seqPost_ok, applyFsGroup]
  refine wp_onlyIf (fun _ => ?_) fun _ => rfl
  rw [wp_swallow, wp_bind]
  refine wp_call_smooth h ?_
  rw [seqPost_ok]
  exact wp_call_smooth h rfl

/-- An attach raises before it has moved anything, or not at all. -/
theorem wp_nfsAttach_smooth (h : Smooth env) (hname : Names site v share)
    (hip : env.localIp = site.localIp) (hdir : env.volumeDir = site.volumeDir)
    (hkept : Kept site s) :
    wp (nfsAttach env v) (fun r s' => r = .ok () ∨ Unmoved s s') s := by
  rw [hname.body, wp_bind]
  refine wp_mono (unmoved_refuseUnlessNodeIsOurs.wp s) fun r s₀ h₀ => ?_
  cases r with
  | raise e => exact .inr h₀
  | halt => exact .inr h₀
  | ok a =>
      rw [seqPost_ok, wp_bind]
      have hgrant : wp (grantAccess env v (site.only share)) (fun r s₁ =>
          r = .ok () ∨ Unmoved s₀ s₁) s₀ := by
        unfold grantAccess
        rw [hname.shareId]
        simp only
        rw [wp_bind]
        refine wp_mono ((unmoved_refuseIfGrantsAreWiderThanHosts share).wp s₀) fun r s₁ h₁ => ?_
        cases r with
        | raise e => exact .inr h₁
        | halt => exact .inr h₁
        | ok a =>
            rw [seqPost_ok, localIpFor, ask, wp_bind, wp_bind]
            refine wp_call_smooth h ?_
            rw [seqPost_ok, wp_read, seqPost_ok]
            exact wp_mono (wp_grant_smooth h share _) fun r _ hr => .inl hr
      refine wp_mono (wp_and (wp_grantAccess hname hip) hgrant) ?_
      rintro r s₁ ⟨⟨hmounts, hrules, -⟩, h₁⟩
      have hearly (hr : r ≠ .ok ()) : Unmoved s s₁ :=
        trans_of Unmoved h₀ (h₁.resolve_left hr)
      cases r with
      | raise e => exact .inr (hearly (by simp))
      | halt => exact .inr (hearly (by simp))
      | ok a =>
          rw [seqPost_ok]
          refine wp_mono (wp_attachPath_smooth h hname hdir ?_) fun r _ hr => .inl hr
          exact hkept.granting (hmounts.trans h₀.mounts) (hrules.after h₀)

/-! ## Every run -/

section Attach

variable {r : Result Failure Unit} {excused : List String}

theorem Granting.mem_of_ne {ip : String} {q : Rule} (h : Granting share ip s s') (hq : q.share ≠ share) :
    q ∈ s'.rules ↔ q ∈ s.rules := by
  rcases h with ⟨hrules, -⟩ | ⟨hrules, -⟩
  · rw [hrules]
  · rw [hrules, List.mem_cons]
    refine ⟨fun hmem => hmem.resolve_left ?_, .inr⟩
    rintro rfl
    exact hq rfl

theorem Granting.mem {ip : String} {q : Rule} (h : Granting share ip s s') (hq : q ∈ s.rules) :
    q ∈ s'.rules := by
  rcases h with ⟨hrules, -⟩ | ⟨hrules, -⟩
  · exact hrules ▸ hq
  · exact hrules ▸ List.mem_cons_of_mem _ hq

theorem Kept.attached (h : Kept site s) (hname : Names site v share)
    (hdir : env.volumeDir = site.volumeDir) (ha : Attached env site v share s r s') :
    Kept site s' := by
  have hbefore : Kept site { s' with mounts := s.mounts } := h.granting rfl ha.rules
  rcases ha.mounts with hsame | ⟨-, hnew⟩
  · exact h.granting hsame ha.rules
  · refine ⟨?_, ?_, hbefore.ids, hbefore.fresh⟩
    · rw [hnew]
      intro m hm share' hof
      rcases List.mem_cons.mp hm with rfl | hm
      · rw [hname.shareOf] at hof
        rw [Option.some.inj hof]
      · exact h.only m hm share' hof
    · rw [hnew]
      intro m hm vol hpath
      rcases List.mem_cons.mp hm with rfl | hm
      · have hvol : v.volume = vol := by simpa [getMountpoint, hdir] using hpath
        rw [← hvol, ← hname.contents, hname.export]
      · exact h.paths m hm vol hpath

theorem mounted_attached (hname : Names site v share) (ha : Attached env site v share s r s')
    {share' : String} (hne : share' ≠ share) : Mounted site share' s' ↔ Mounted site share' s := by
  unfold Mounted
  rcases ha.mounts with hsame | ⟨-, hnew⟩
  · rw [hsame]
  · rw [hnew]
    constructor
    · rintro ⟨m, hm, hof⟩
      rcases List.mem_cons.mp hm with rfl | hm
      · rw [hname.shareOf] at hof
        exact absurd (Option.some.inj hof).symm hne
      · exact ⟨m, hm, hof⟩
    · rintro ⟨m, hm, hof⟩
      exact ⟨m, List.mem_cons_of_mem _ hm, hof⟩

theorem almost_attached (hname : Names site v share) (ha : Attached env site v share s r s')
    (h : Agreed site ⟨s, excused⟩) : Almost site share excused s' where
  granted share' hm := by
    by_cases hne : share' = share
    · subst hne
      rcases ha.mounts with hsame | ⟨hruled, -⟩
      · unfold Mounted at hm
        rw [hsame] at hm
        obtain ⟨q, hq, hrest⟩ := h.granted share' hm
        exact ⟨q, ha.rules.mem hq, hrest⟩
      · exact hruled
    · obtain ⟨q, hq, hrest⟩ := h.granted share' ((mounted_attached hname ha hne).mp hm)
      exact ⟨q, ha.rules.mem hq, hrest⟩
  mounted share' hne hr := by
    obtain ⟨q, hq, hshare, hip⟩ := hr
    have hq : q ∈ s.rules := (ha.rules.mem_of_ne (hshare ▸ hne)).mp hq
    rcases h.mounted share' ⟨q, hq, hshare, hip⟩ with hm | hex
    · exact .inl ((mounted_attached hname ha hne).mpr hm)
    · exact .inr hex

theorem agreed_attached (hname : Names site v share) (ha : Attached env site v share s (.ok ()) s')
    (h : Agreed site ⟨s, excused⟩) : Agreed site ⟨s', excused⟩ := by
  have halmost := almost_attached hname ha h
  refine ⟨halmost.granted, fun share' hr => ?_⟩
  by_cases hne : share' = share
  · exact .inl (hne ▸ (ha.done rfl).2)
  · exact halmost.mounted share' hne hr

end Attach

theorem nfsDetach_run (hname : Names site v share) (s : Node) : nfsDetach env v s =
    withdraw env v.options (detachPath env (getMountpoint env v.volume) s).2 := by
  rw [← detachLocked_run]
  simp [nfsDetach, validateVolumeProvider, hname.provider]

/-- The runs of the system keep rules and mounts in agreement. -/
structure Sound (site : Site) (x : Run) : Prop extends Agreed site x where
  kept : Kept site x.node

/-- What a detach leaves, from a node whose rules and mounts agree but for its own share. -/
theorem sound_detach {excused : List String} (hname : Names site v share)
    (hip : env.localIp = site.localIp) (hdir : env.volumeDir = site.volumeDir)
    (hread : ∀ n, env.refuse n .readMounts = none) (hkept : Kept site s)
    (h : Almost site share excused s) (s₁ : Node)
    (hs₁ : s₁ = (detachPath env (getMountpoint env v.volume) s).2) :
    Sound site ⟨(nfsDetach env v s).2,
      excusedBy share s₁ (withdraw env v.options s₁).2 ++ excused⟩ := by
  subst hs₁
  rw [nfsDetach_run hname]
  have h₁ : Unmounted (getMountpoint env v.volume) s
      (detachPath env (getMountpoint env v.volume) s).2 := (wp_unmounted _).2
  have hids : ((detachPath env (getMountpoint env v.volume) s).2.rules.map (·.id)).Nodup := by
    rw [h₁.rules]
    exact hkept.ids
  have h' : Withdrawn site share (detachPath env (getMountpoint env v.volume) s).2
      (withdraw env v.options (detachPath env (getMountpoint env v.volume) s).2).2 :=
    wp_withdraw hname hip hread hids
  obtain ⟨hkept', hagreed⟩ := agreed_detached hname hdir hkept h h₁ h'
  exact ⟨hagreed, hkept'⟩

theorem excused_of (op : Op) (s₁ : Node) (hname : Names site op.mapping share)
    (h : op.withdraws env s = some s₁) :
    op.excused env s = excusedBy share s₁ (withdraw env op.mapping.options s₁).2 := by
  unfold Op.excused excusedBy
  rw [h, hname.shareId]
  rfl

theorem excused_none {op : Op} (h : op.withdraws env s = none) : op.excused env s = [] := by
  unfold Op.excused
  rw [h]

theorem swallow_state (p : Prog Node Failure Unit) (s : Node) : (swallow p s).2 = (p s).2 := by
  unfold swallow tryExcept
  split
  · rename_i h
    rw [h]
    rfl
  · rfl

/-- The node after an attach that raised: the volume is deleted again, if it is to go. -/
theorem managerAttach_raised {e : Failure} {s₁ : Node} (h : nfsAttach env v s = (.raise e, s₁)) :
    (managerAttach env v s).2 = if v.autoRemove then (nfsDelete env v s₁).2 else s₁ := by
  have hend : (managerAttach env v s).2 =
      (onlyIf v.autoRemove (swallow (nfsDelete env v)) s₁).2 := by
    unfold managerAttach reraising tryExcept
    rw [h]
    change (andThen (onlyIf v.autoRemove (swallow (nfsDelete env v))) _ s₁).2 = _
    unfold andThen
    split
    case h_1 hr => rw [hr]; rfl
    case h_2 hr => rw [hr]
    case h_3 hr => rw [hr]
  rw [hend, onlyIf]
  split
  · exact swallow_state _ _
  · rfl

theorem sound_attach {excused : List String} (hname : Names site v share)
    (hip : env.localIp = site.localIp) (hdir : env.volumeDir = site.volumeDir)
    (hread : ∀ n, env.refuse n .readMounts = none) (hclean : v.autoRemove = true ∨ Smooth env)
    (h : Sound site ⟨s, excused⟩) :
    Sound site ⟨(managerAttach env v s).2, (Op.attach v).excused env s ++ excused⟩ := by
  have ha : Attached env site v share s (nfsAttach env v s).1 (nfsAttach env v s).2 :=
    wp_nfsAttach hname hip hdir h.kept
  rcases hrun : nfsAttach env v s with ⟨r, s₁⟩
  rw [hrun] at ha
  cases r with
  | halt => exact absurd rfl ha.ended
  | ok a =>
      have hend : (managerAttach env v s).2 = s₁ := by
        unfold managerAttach reraising tryExcept
        rw [hrun]
      rw [hend, excused_none (by simp [Op.withdraws, hrun]), List.nil_append]
      exact ⟨agreed_attached hname ha h.toAgreed, h.kept.attached hname hdir ha⟩
  | raise e =>
      rw [managerAttach_raised hrun]
      cases hremove : v.autoRemove with
      | true =>
          rw [if_pos rfl, excused_of (.attach v) (detachPath env (getMountpoint env v.volume) s₁).2
            hname (by simp [Op.withdraws, hrun, hremove])]
          exact sound_detach hname hip hdir hread (h.kept.attached hname hdir ha)
            (almost_attached hname ha h.toAgreed) _ rfl
      | false =>
          -- What raises here has not granted anything yet.
          have hsmooth : Smooth env := hclean.resolve_left (by simp [hremove])
          have hearly := wp_nfsAttach_smooth hsmooth hname hip hdir h.kept
          rw [wp, hrun] at hearly
          have hun : Unmoved s s₁ := hearly.resolve_left (by simp)
          rw [if_neg (by simp), excused_none (by simp [Op.withdraws, hrun, hremove]), List.nil_append]
          refine ⟨⟨fun share' hm => ?_, fun share' hr => ?_⟩, h.kept.attached hname hdir ha⟩
          · obtain ⟨q, hq, hrest⟩ := h.granted share' (by simpa [Mounted, hun.mounts] using hm)
            exact ⟨q, hun.rules ▸ hq, hrest⟩
          · obtain ⟨q, hq, hrest⟩ := hr
            rcases h.mounted share' ⟨q, hun.rules ▸ hq, hrest⟩ with ⟨m, hm, hof⟩ | hex
            · exact .inl ⟨m, hun.mounts ▸ hm, hof⟩
            · exact .inr hex

theorem sound_step (e : Event) (x : Run) (hfair : Fair site e x) (h : Sound site x) :
    Sound site (e.step x) := by
  obtain ⟨share, hname⟩ := hfair.named
  obtain ⟨env, op⟩ := e
  obtain ⟨s, excused⟩ := x
  have hdetach (v : Mapping) (hname : Names site v share) := sound_detach hname hfair.localIp
    hfair.volumeDir hfair.readable h.kept (h.almost share) _ rfl
  cases op with
  | detach v =>
      change Sound site ⟨(nfsDetach env v s).2, (Op.detach v).excused env s ++ excused⟩
      rw [excused_of (.detach v) _ hname rfl]
      exact hdetach v hname
  | delete v =>
      change Sound site ⟨(nfsDetach env v s).2, (Op.delete v).excused env s ++ excused⟩
      rw [excused_of (.delete v) _ hname rfl]
      exact hdetach v hname
  | attach v =>
      exact sound_attach hname hfair.localIp hfair.volumeDir hfair.readable
        (hfair.cleaned v rfl) h

theorem sound_started {x : Run} (h : Started site x) : Sound site x := by
  have hno (share : String) : ¬ Mounted site share x.node := by
    rintro ⟨m, hm, hof⟩
    simp [(h.unmounted m hm).1] at hof
  refine ⟨⟨fun share hm => absurd hm (hno share), fun share hr => absurd hr (h.unruled share)⟩,
    ⟨fun m hm share hof => ?_, fun m hm vol hpath => ?_, h.ids, h.fresh⟩⟩
  · exact absurd ⟨m, hm, hof⟩ (hno share)
  · exact absurd hpath ((h.unmounted m hm).2 vol)

/-- In every run of attaches and detaches whose mappings name their share and the one export of
it, the node holds a rule on a share exactly while an export of the share is mounted, a revoke that
failed excepted. -/
theorem agreed_of_fair (site : Site) {x : Run} (h : Reached (Started site) Event.step (Fair site) x) :
    Agreed site x :=
  (h.invariant (fun _ => sound_started) sound_step).toAgreed

/-- A share with two export locations.  The first volume names one of them, and the others the
second. -/
def twoPaths : Site where
  shareOf e := if e = "10.0.0.8:/s1" ∨ e = "10.0.0.9:/s1" then some "s1" else none
  only _ := "10.0.0.8:/s1"
  contents vol :=
    { «export» := some (if vol = "v1" then "10.0.0.8:/s1" else "10.0.0.9:/s1"), shareId := some "s1" }
  localIp _ := "10.0.0.1"
  volumeDir := ["var", "lib", "zun", "mnt"]

/-- The mapping of a volume of the share. -/
def pathTo (vol : String) : Mapping := { volume := vol, options := twoPaths.contents vol }

/-- The node with its root filesystem and nothing else. -/
def bareNode : Run := ⟨{ mounts := [⟨"/dev/sda", ⟨0, []⟩, []⟩] }, []⟩

theorem started_bareNode : Started twoPaths bareNode where
  unmounted m hm := by
    obtain rfl : m = ⟨"/dev/sda", ⟨0, []⟩, []⟩ := by simpa [bareNode] using hm
    exact ⟨by decide, by simp⟩
  unruled share h := by
    obtain ⟨r, hr, -⟩ := h
    simp [bareNode] at hr
  ids := List.nodup_nil
  fresh r hr := by simp [bareNode] at hr

def oneMounted : Run := Event.step ⟨{}, .attach (pathTo "v1")⟩ bareNode

/-- The share is mounted by its first path, and the node has its rule. -/
theorem agreed_oneMounted : Agreed twoPaths oneMounted ∧ oneMounted.node.rules.length = 1 := by
  refine ⟨agreed_of_fair twoPaths (.step _ (.init started_bareNode) ?_), by decide +kernel⟩
  refine ⟨⟨"s1", rfl, rfl, rfl, rfl, rfl⟩, rfl, rfl, fun _ => rfl, fun v hv => .inl ?_⟩
  cases hv
  rfl

/-- Both paths are mounted, and the first one goes. -/
def oneLeft : Run :=
  Event.step ⟨{}, .detach (pathTo "v1")⟩ (Event.step ⟨{}, .attach (pathTo "v2")⟩ oneMounted)

/-- The share is still mounted by its second path, and the rule is gone. -/
theorem oneLeft_not_agreed :
    Reached (Started twoPaths) Event.step (fun _ _ => True) oneLeft ∧ oneLeft.excused = [] ∧
    Mounted twoPaths "s1" oneLeft.node ∧ ¬ HasRule twoPaths "s1" oneLeft.node ∧
    ¬ Agreed twoPaths oneLeft := by
  have hmounts : (oneLeft.node.mounts.map (·.source)) = ["10.0.0.9:/s1", "/dev/sda"] := by
    decide +kernel
  have hrules : oneLeft.node.rules = [] := by decide +kernel
  have hmounted : Mounted twoPaths "s1" oneLeft.node := by
    have hmem : "10.0.0.9:/s1" ∈ oneLeft.node.mounts.map (·.source) := by simp [hmounts]
    obtain ⟨m, hm, hsource⟩ := List.mem_map.mp hmem
    exact ⟨m, hm, by rw [hsource]; decide⟩
  have hno : ¬ HasRule twoPaths "s1" oneLeft.node := by
    rintro ⟨r, hr, -⟩
    simp [hrules] at hr
  refine ⟨?_, by decide +kernel, hmounted, hno, fun h => hno (h.granted _ hmounted)⟩
  exact .step _ (.step _ (.step _ (.init started_bareNode) trivial) trivial) trivial

end Volume

end Zun
