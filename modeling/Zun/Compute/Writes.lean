import Zun.Compute.Usage

/-!
# What the tracker has written down

`_update` writes only when the node is not the one it has recorded, and it records the node
before it makes the first of its writes.  A write that is refused is therefore remembered as
made.  It is made again only when the node is another one by then.

The log says which write of `_update` came last and how it was answered.  In every reachable
state the recorded node is the saved one unless that write was refused, and from this follows
exactly when an `_update` that returns has everything written down.
-/

namespace Zun

open Effect Prog

namespace Tracker

variable {env : Env} {s s' : State} {n : Node}

/-! ## The last write -/

/-- The last write of an `_update`, when it was refused. -/
def refusedLast (s : State) : Option Write :=
  match s.log.filter (·.1.ofUpdate) with
  | (w, some _) :: _ => some w
  | _ => none

/-- No device has changes that were not saved. -/
def Clean (s : State) : Prop := ∀ dev, flagged dev s = false

/-- An `_update` that returns has saved the node and the devices, and has made the write again
that was refused before. -/
structure Persisted (env : Env) (s : State) : Prop where
  saved : ∀ s', update env s = (.ok (), s') → s'.saved = s'.node ∧ Clean s'
  again : ∀ s' w, update env s = (.ok (), s') → refusedLast s = some w →
    ∃ new, s'.log = new ++ s.log ∧ (w, none) ∈ new

/-- What holds between two calls of `_update`. -/
structure Noted (s : State) : Prop where
  recorded : refusedLast s = none → s.old = none ∨ s.old = s.saved
  owed : ∀ dev, refusedLast s = some (.savePci dev) → flagged dev s = true
  unsaved : s.saved = none → s.old = none

theorem Drafting.refusedLast (h : Drafting s s') : refusedLast s' = refusedLast s := by
  unfold Tracker.refusedLast
  rw [h.log]

theorem Noted.drafting (h : Noted s) (hd : Drafting s s') : Noted s' where
  recorded hlast := by
    rw [hd.refusedLast] at hlast
    rw [hd.old]
    rcases hd.saved with hsaved | hnone
    · rw [hsaved]
      exact h.recorded hlast
    · exact .inl (h.unsaved hnone)
  owed dev hlast := by
    rw [hd.refusedLast] at hlast
    exact hd.flagged dev (h.owed dev hlast)
  unsaved hnone := by
    rw [hd.old]
    rcases hd.saved with hsaved | hs
    · exact h.unsaved (hsaved ▸ hnone)
    · exact h.unsaved hs

/-! ## The devices -/

theorem flagged_markSaved {dev dev' : Nat} :
    flagged dev' (markSaved dev s) = (flagged dev' s && !(dev' == dev)) := by
  unfold flagged markSaved
  cases s.pci with
  | none => rfl
  | some devs =>
      simp only [Option.map_some, Option.getD_some]
      induction devs with
      | nil => rfl
      | cons d devs ih =>
          rw [List.map_cons, List.any_cons, ih, List.any_cons, Bool.and_or_distrib_right]
          congr 1
          by_cases hd : d.id = dev
          · by_cases hd' : dev' = dev
            · simp [hd, hd']
            · have hne : ¬ dev = dev' := by omega
              simp [hd, hne]
          · by_cases hd' : dev' = dev
            · have hne : ¬ d.id = dev' := by omega
              simp [hd, hne]
            · simp [hd, hd']

/-- What some turns of `PciDevTracker.save` leave. -/
structure Saving (ids : List Nat) (s : State) (r : Result Failure Unit) (s' : State) : Prop where
  same : SameBooks s s'
  log : ∃ new, s'.log = new ++ s.log ∧ (∀ x ∈ new, x.1.ofUpdate = true) ∧
    (r = .ok () → (∀ x ∈ new, x.2 = none) ∧
      ∀ dev ∈ ids, flagged dev s = true → (.savePci dev, none) ∈ new) ∧
    (r ≠ .ok () → ∃ dev f rest, new = (.savePci dev, some f) :: rest ∧ flagged dev s' = true)
  flags : ∀ dev, flagged dev s' = true → flagged dev s = true ∧ (r = .ok () → dev ∉ ids)

theorem wp_saveEach (ds : List PciDev) : ∀ s,
    wp (forEach ds (saveDev env)) (Saving (ds.map (·.id)) s) s := by
  induction ds with
  | nil =>
      intro s
      exact ⟨refl_of SameBooks s, ⟨[], rfl, by simp, by simp, by simp [forEach, ret]⟩,
        fun _ h => ⟨h, by simp⟩⟩
  | cons d ds ih =>
      intro s
      rw [forEach, wp_andThen, saveDev, wp_bind, wp_read, seqPost_ok]
      refine wp_onlyIf (fun hflag => ?_) fun hflag => ?_
      · refine wp_write (fun _ => ?_) fun f _ => ?_
        · rw [seqPost_ok]
          refine wp_mono (ih _) fun r s' h => ?_
          obtain ⟨new, hlog, hof, hok, hraise⟩ := h.log
          have hsame : SameBooks s (markSaved d.id { s with
              log := (.savePci d.id, none) :: s.log }) := ⟨⟨rfl, rfl⟩, rfl, rfl⟩
          refine ⟨trans_of SameBooks hsame h.same,
            ⟨new ++ [(.savePci d.id, none)], ?_, ?_, fun hr => ?_, fun hr => ?_⟩, fun dev hdev => ?_⟩
          · rw [hlog]
            simp [markSaved]
          · simp only [List.mem_append, List.mem_singleton]
            rintro x (hx | rfl)
            · exact hof x hx
            · rfl
          · obtain ⟨hall, hmade⟩ := hok hr
            refine ⟨?_, fun dev hmem hdev => ?_⟩
            · simp only [List.mem_append, List.mem_singleton]
              rintro x (hx | rfl)
              · exact hall x hx
              · rfl
            · by_cases hd : dev = d.id
              · simp [hd]
              · have hrest : dev ∈ ds.map (·.id) := by simpa [hd] using hmem
                have hstill : flagged dev (markSaved d.id { s with
                    log := (.savePci d.id, none) :: s.log }) = true := by
                  rw [flagged_markSaved]
                  change (flagged dev s && !(dev == d.id)) = true
                  simp [hd, hdev]
                exact List.mem_append_left _ (hmade dev hrest hstill)
          · obtain ⟨dev, f, rest, hnew, hdev⟩ := hraise hr
            exact ⟨dev, f, rest ++ [(.savePci d.id, none)], by simp [hnew], hdev⟩
          · obtain ⟨hbefore, hnot⟩ := h.flags dev hdev
            rw [flagged_markSaved, Bool.and_eq_true] at hbefore
            refine ⟨hbefore.1, fun hr => ?_⟩
            have hne : dev ≠ d.id := by simpa using hbefore.2
            simpa [hne] using hnot hr
        · exact ⟨⟨⟨rfl, rfl⟩, rfl, rfl⟩, ⟨[(.savePci d.id, some f)], rfl, by simp [Write.ofUpdate],
            by simp, fun _ => ⟨d.id, f, [], rfl, hflag⟩⟩, fun dev hdev => ⟨hdev, by simp⟩⟩
      · rw [seqPost_ok]
        refine wp_mono (ih s) fun r s' h => ?_
        obtain ⟨new, hlog, hof, hok, hraise⟩ := h.log
        have hclean : ∀ dev, flagged dev s = true → dev ≠ d.id := by
          rintro dev hdev rfl
          exact hflag hdev
        refine ⟨h.same, ⟨new, hlog, hof, fun hr => ?_, hraise⟩, fun dev hdev => ?_⟩
        · refine ⟨(hok hr).1, fun dev hmem hdev => (hok hr).2 dev ?_ hdev⟩
          simpa [hclean dev hdev] using hmem
        · obtain ⟨hbefore, hnot⟩ := h.flags dev hdev
          refine ⟨hbefore, fun hr => ?_⟩
          simpa [hclean dev hbefore] using hnot hr

/-! ## Before the call -/

/-- The node in memory was read from a row. -/
def Backed (s : State) : Prop := s.node.isSome = true → s.saved.isSome = true

theorem backed_updateUsage (sign : Int) (c : Container) : Within (Kept Backed) (updateUsage sign c) := by
  refine within_of_wp fun s => ?_
  refine wp_mono (wp_updateUsage sign) ?_
  rintro r s' ⟨hraise, hok⟩ hs
  by_cases hbad : c.pinned = true ∨ s.node = none
  · rw [(hraise hbad).1]
    exact hs
  · rw [not_or] at hbad
    obtain ⟨n, hn⟩ := Option.ne_none_iff_exists'.mp hbad.2
    obtain ⟨-, rfl⟩ := hok n (by simpa using hbad.1) hn
    exact fun _ => hs (by simp [hn])

theorem backed_updateUsageFromContainer (c : Container) (removed : Bool) :
    Within (Kept Backed) (updateUsageFromContainer c removed) := by
  refine (within_read _).bind fun known => within_ite ?_ ?_
  all_goals
    refine Within.onlyIf (Within.bind (within_modify fun _ h => h) fun _ => ?_)
    exact (within_modify fun _ h => h).bind fun _ => backed_updateUsage _ _

theorem backed_updateUsageFromContainerUpdate (new old : Container) :
    Within (Kept Backed) (updateUsageFromContainerUpdate new old) :=
  Within.bind (within_modify fun _ h => h) fun _ =>
    (backed_updateUsage _ _).bind fun _ => backed_updateUsage _ _

theorem backed_reread : Within (Kept Backed) reread := within_modify fun _ _ h => h

theorem backed_makeClaim (c : Container) (a : Asked) (pci : Option (List Nat))
    (limits : Option Limits) : Within (Kept Backed) (makeClaim env c a pci limits) :=
  within_of_wp fun s => wp_mono wp_makeClaim fun _ s' h hs => by
    rw [h.1]
    exact hs

theorem Drafting.saved_isSome (h : Drafting s s') (hs : s.saved.isSome = true) :
    s'.saved.isSome = true := by
  rcases h.saved with hsaved | hnone
  · rw [hsaved]
    exact hs
  · rw [hnone] at hs
    cases hs

theorem backed_audit (r : Resources) (available : Bool) (cs : List Container) :
    Within (Kept Backed) (audit env r available cs) := by
  have hrest (node : Node) : Within (Kept fun s => s.saved.isSome = true) (do
      modify fun s => { s with pci := some (s.pci.getD env.devices), node := some node }
      if available then do
        updateUsageFromContainers cs
        pure true
      else pure false : Prog State Failure Bool) := by
    refine Within.bind (within_modify fun _ h => h) fun _ => within_ite ?_ (within_pure _)
    refine Within.bind (fun s hs => ?_) fun _ => within_pure _
    exact (drafting_updateUsageFromContainers cs s).saved_isSome hs
  refine within_of_wp fun s => ?_
  unfold audit
  rw [wp_bind, wp_read, seqPost_ok, wp_bind]
  refine wp_onlyIf (fun _ => ?_) fun hsome => ?_
  · refine wp_write (fun _ => ?_) fun _ _ h => h
    rw [seqPost_ok]
    exact wp_mono ((hrest _).wp _) fun _ s' h _ _ => h rfl
  · rw [seqPost_ok]
    exact wp_mono ((hrest _).wp s) fun _ s' h _ _ => h (Option.isSome_iff_ne_none.mpr hsome)

theorem backed_prepare (op : Op) : Within (Kept Backed) (op.prepare env) := by
  cases op with
  | claim c pci limits =>
      refine within_ite (within_pure _) (backed_reread.bind fun _ => ?_)
      refine (backed_makeClaim _ _ _ _).bind fun _ => Within.bind ?_ fun _ => ?_
      · exact (within_read _).bind fun devs => within_modify fun _ h => h
      · refine Within.bind (within_write (fun _ _ h => h) fun _ h => h) fun _ => ?_
        exact (backed_updateUsageFromContainer _ _).bind fun _ => within_pure _
  | abort c => exact (backed_updateUsageFromContainer _ _).bind fun _ => within_pure _
  | updateClaim new old limits =>
      refine within_ite (within_pure _) (backed_reread.bind fun _ => ?_)
      refine (backed_makeClaim _ _ _ _).bind fun _ => ?_
      exact (backed_updateUsageFromContainerUpdate _ _).bind fun _ => within_pure _
  | abortUpdate new old =>
      exact (backed_updateUsageFromContainerUpdate _ _).bind fun _ => within_pure _
  | remove c =>
      refine backed_reread.bind fun _ => ?_
      exact (backed_updateUsageFromContainer _ _).bind fun _ => within_pure _
  | audit r available cs => exact backed_audit r available cs

/-! ## One call -/

/-- What the tries at placement leave. -/
theorem wp_updateToPlacement (k : Nat) : ∀ s,
    wp (updateToPlacement env k) (fun r s' => SameBooks s s' ∧ s'.pci = s.pci ∧
      ∃ f rest, s'.log = (.updatePlacement, f) :: rest ++ s.log ∧ (f = none ↔ r = .ok ())) s := by
  induction k with
  | zero =>
      intro s
      refine wp_write (fun _ => ?_) fun f _ => ?_
      · exact ⟨⟨⟨rfl, rfl⟩, rfl, rfl⟩, rfl, none, [], rfl, by simp⟩
      · exact ⟨⟨⟨rfl, rfl⟩, rfl, rfl⟩, rfl, some f, [], rfl, by simp⟩
  | succ k ih =>
      intro s
      rw [updateToPlacement, wp_tryExcept]
      refine wp_write (fun _ => ?_) fun f _ => ?_
      · exact ⟨⟨⟨rfl, rfl⟩, rfl, rfl⟩, rfl, none, [], rfl, by simp⟩
      · rw [exceptPost_raise, wp_ite]
        split
        · refine wp_mono (ih _) ?_
          rintro r s' ⟨hsame, hpci, f', rest, hlog, hiff⟩
          exact ⟨⟨⟨hsame.node, hsame.tracked⟩, hsame.old, hsame.saved⟩, hpci, f',
            rest ++ [(.updatePlacement, some f)], by simp [hlog], hiff⟩
        · rw [wp_raise]
          exact ⟨⟨⟨rfl, rfl⟩, rfl, rfl⟩, rfl, some f, [], rfl, by simp⟩

theorem refusedLast_of_head {w : Write} {f : Option Fault} {rest : List (Write × Option Fault)}
    (h : s.log = (w, f) :: rest) (hw : w.ofUpdate = true) : refusedLast s = f.map fun _ => w := by
  unfold refusedLast
  rw [h]
  cases f <;> simp [hw]

/-- What a call of `_update` that got as far as writing leaves. -/
structure Written (n : Node) (s : State) (r : Result Failure Unit) (s' : State) : Prop where
  node : s'.node = some n
  backed : s'.saved.isSome = true
  noted : Noted s'
  done : r = .ok () → s'.saved = some n ∧ Clean s' ∧ ∃ new, s'.log = new ++ s.log ∧
    (.saveNode, none) ∈ new ∧ (.updatePlacement, none) ∈ new ∧
    ∀ dev, flagged dev s = true → (.savePci dev, none) ∈ new

theorem noted_of_saved (hold : s.old = s.saved)
    (howed : ∀ dev, refusedLast s = some (.savePci dev) → flagged dev s = true) : Noted s where
  recorded _ := .inr hold
  owed := howed
  unsaved h := hold.trans h

theorem flagged_mem {dev : Nat} (h : flagged dev s = true) :
    dev ∈ (s.pci.getD []).map (·.id) := by
  obtain ⟨d, hd, hflag⟩ := List.any_eq_true.mp h
  obtain ⟨hdev, -⟩ : d.id = dev ∧ d.changed = true := by simpa using hflag
  exact List.mem_map.mpr ⟨d, hd, hdev⟩

theorem wp_written (hn : s.node = some n) (hback : Backed s) :
    wp (do
      modify fun s => { s with old := some n }
      write env .saveNode fun s => { s with saved := some n }
      updateToPlacement env 3
      savePci env) (Written n s) s := by
  rw [wp_bind, wp_modify, seqPost_ok, wp_bind]
  refine wp_write (fun _ => ?_) fun f _ => ?_
  swap
  · -- The node is recorded, and its row is as it was.
    have hlast : refusedLast ({ s with
        old := some n, log := (.saveNode, some f) :: s.log } : State) = some .saveNode :=
      refusedLast_of_head (w := .saveNode) (f := some f) rfl rfl
    have hsome : s.saved.isSome = true := hback (by simp [hn])
    refine ⟨hn, hsome, ⟨?_, ?_, fun hnone => ?_⟩, by simp⟩
    · simp [hlast]
    · simp [hlast]
    · simp [show s.saved = none from hnone] at hsome
  rw [seqPost_ok, wp_bind]
  refine wp_mono (wp_updateToPlacement 3 _) ?_
  rintro r s₁ ⟨hsame, hpci, f, rest, hlog, hiff⟩
  have hlast : refusedLast s₁ = f.map fun _ => .updatePlacement := refusedLast_of_head hlog rfl
  have howed : ∀ dev, refusedLast s₁ = some (.savePci dev) → flagged dev s₁ = true := by
    intro dev h
    rw [hlast] at h
    cases f <;> simp at h
  have hbooks : s₁.old = s₁.saved := hsame.old.trans hsame.saved.symm
  have hsome : s₁.saved.isSome = true := by simp [hsame.saved]
  cases r with
  | raise e => exact ⟨hsame.node.trans hn, hsome, noted_of_saved hbooks howed, by simp⟩
  | halt => exact ⟨hsame.node.trans hn, hsome, noted_of_saved hbooks howed, by simp⟩
  | ok a =>
      cases hiff.mpr rfl
      rw [seqPost_ok, savePci, wp_bind, wp_read, seqPost_ok]
      refine wp_mono (wp_saveEach _ s₁) fun r s₂ h => ?_
      obtain ⟨new, hlog', hof, hok, hraise⟩ := h.log
      have hbooks' : s₂.old = s₂.saved := h.same.old.trans (hbooks.trans h.same.saved.symm)
      refine ⟨h.same.node.trans (hsame.node.trans hn), h.same.saved ▸ hsome,
        noted_of_saved hbooks' fun dev hdev => ?_, fun hr => ?_⟩
      · by_cases hr : r = .ok ()
        · cases new with
          | nil =>
              rw [refusedLast_of_head (hlog'.trans hlog) rfl] at hdev
              cases hdev
          | cons x new =>
              obtain ⟨w, g⟩ := x
              have hg : g = none := (hok hr).1 (w, g) (List.mem_cons_self ..)
              rw [refusedLast_of_head hlog' (hof (w, g) (List.mem_cons_self ..)), hg] at hdev
              cases hdev
        · obtain ⟨dev', g, rest', hnew, hflag⟩ := hraise hr
          rw [hnew] at hlog'
          rw [refusedLast_of_head hlog' rfl] at hdev
          cases hdev
          exact hflag
      · refine ⟨h.same.saved.trans hsame.saved, fun dev => ?_, new ++ (.updatePlacement, none) :: rest
          ++ [(.saveNode, none)], ?_, by simp, by simp, fun dev hdev => ?_⟩
        · cases hflag : flagged dev s₂ with
          | false => rfl
          | true =>
              obtain ⟨hbefore, hnot⟩ := h.flags dev hflag
              exact absurd (flagged_mem hbefore) (hnot hr)
        · rw [hlog', hlog]
          simp
        · have hdev₁ : flagged dev s₁ = true := by
            unfold flagged
            rw [hpci]
            exact hdev
          have hmem := (hok hr).2 dev (flagged_mem hdev₁) hdev₁
          simp [hmem]

/-- A call of `_update`. -/
theorem wp_update (hn : s.node = some n) (hback : Backed s) :
    wp (update env) (fun r s' => (s.old = some n ∧ r = .ok () ∧ s' = s) ∨
      (s.old ≠ some n ∧ Written n s r s')) s := by
  unfold update
  rw [wp_bind]
  refine wp_computeNode (fun n' hn' => ?_) fun hnone => by simp [hn] at hnone
  cases hn.symm.trans hn'
  rw [seqPost_ok, wp_bind, wp_read, seqPost_ok]
  refine wp_onlyIf (fun hold => ?_) fun hold => .inl ⟨by simpa using hold, rfl, rfl⟩
  exact wp_mono (wp_written hn hback) fun r s' h => .inr ⟨hold, h⟩

/-- The states between two steps. -/
structure Between (s : State) : Prop extends Noted s where
  backed : Backed s

theorem between_prepare (op : Op) (h : Between s) : Between (op.prepare env s).2 where
  toNoted := h.toNoted.drafting (drafting_prepare op s)
  backed := backed_prepare op s h.backed

theorem between_update (h : Between s) : Between (update env s).2 := by
  have hwp : wp (update env) (fun _ s' => Between s') s := by
    cases hn : s.node with
    | none =>
        unfold update
        rw [wp_bind]
        exact wp_computeNode (fun n hsome => by simp [hn] at hsome) fun _ => h
    | some n =>
        refine wp_mono (wp_update hn h.backed) ?_
        rintro r s' (⟨-, -, rfl⟩ | ⟨-, hwritten⟩)
        · exact h
        · exact ⟨hwritten.noted, fun _ => hwritten.backed⟩
  exact hwp

theorem between_step (e : Event) (h : Between s) : Between (e.step s) := by
  have hrun : wp (e.op.run e.env) (fun _ s' => Between s') s := by
    unfold Op.run
    rw [wp_bind]
    have hprepare : wp (e.op.prepare e.env) (fun _ s' => Between s') s := between_prepare e.op h
    refine wp_mono hprepare fun r s₁ h₁ => ?_
    cases r with
    | raise f => exact h₁
    | halt => exact h₁
    | ok go =>
        rw [seqPost_ok]
        refine wp_then_kept ?_ fun _ => within_pure _
        exact wp_onlyIf (fun _ => between_update h₁) fun _ => h₁
  exact hrun

theorem between_started (h : Started s) : Between s := by
  obtain ⟨saved, rfl⟩ := h
  exact ⟨⟨by simp, by simp [refusedLast], fun _ => rfl⟩, by simp [Backed]⟩

theorem ofUpdate_of_refusedLast {w : Write} (h : refusedLast s = some w) : w.ofUpdate = true := by
  unfold refusedLast at h
  split at h
  · rename_i heq
    cases h
    have hmem := heq ▸ List.mem_cons_self ..
    exact (List.mem_filter.mp hmem).2
  · cases h

/-- A call that finds the recorded node makes no write. -/
theorem update_recorded (hn : s.node = some n) (hback : Backed s) (hold : s.old = some n) :
    update env s = (.ok (), s) := by
  have hwp : wp (update env) (fun r s' => r = .ok () ∧ s' = s) s := by
    refine wp_mono (wp_update hn hback) ?_
    rintro r s' (⟨-, hr, hs⟩ | ⟨hne, -⟩)
    · exact ⟨hr, hs⟩
    · exact absurd hold hne
  exact Prod.ext hwp.1 hwp.2

theorem persisted_of_changed (hn : s.node = some n) (h : Between s) (hold : s.old ≠ some n) :
    Persisted env s := by
  have hdone (s' : State) (hrun : update env s = (.ok (), s')) : Written n s (.ok ()) s' := by
    have hwp : wp (update env) _ s := wp_update hn h.backed
    rw [wp, hrun] at hwp
    rcases hwp with ⟨heq, -⟩ | ⟨-, hwritten⟩
    · exact absurd heq hold
    · exact hwritten
  constructor
  · intro s' hrun
    have hwritten := hdone s' hrun
    obtain ⟨hsaved, hclean, -⟩ := hwritten.done rfl
    exact ⟨hsaved.trans hwritten.node.symm, hclean⟩
  · intro s' w hrun hlast
    obtain ⟨-, -, new, hlog, hsave, hplacement, hpci⟩ := (hdone s' hrun).done rfl
    refine ⟨new, hlog, ?_⟩
    cases w with
    | saveNode => exact hsave
    | updatePlacement => exact hplacement
    | savePci dev => exact hpci dev (h.owed dev hlast)
    | saveContainer u => cases ofUpdate_of_refusedLast hlast
    | createNode => cases ofUpdate_of_refusedLast hlast

theorem persisted_of_unchanged (hn : s.node = some n) (h : Between s) (hold : s.old = some n) :
    Persisted env s ↔ refusedLast s = none ∧ Clean s := by
  have hrun : update env s = (.ok (), s) := update_recorded hn h.backed hold
  constructor
  · intro hp
    refine ⟨?_, (hp.saved s hrun).2⟩
    cases hlast : refusedLast s with
    | none => rfl
    | some w =>
        obtain ⟨new, hlog, hmem⟩ := hp.again s w hrun hlast
        have hnil : new = [] := by simpa using hlog
        rw [hnil] at hmem
        cases hmem
  · rintro ⟨hlast, hclean⟩
    constructor
    · intro s' hrun'
      cases hrun.symm.trans hrun'
      refine ⟨?_, hclean⟩
      rcases h.recorded hlast with hnone | hsaved
      · rw [hnone] at hold
        cases hold
      · rw [← hsaved, hold, hn]
    · intro s' w _ hw
      rw [hlast] at hw
      cases hw

/-- The database refuses the node. -/
def refusesNode : Env where
  refuse _ w := if w = .saveNode then some .other else none

/-- The audit of a node that has one container. -/
def oneContainer : Op := .audit smallNode true [{ uuid := 1, memory := 2 }]

/-- A first audit whose save of the node is refused. -/
def refusedAudit : State := Event.step ⟨refusesNode, oneContainer⟩ {}

theorem reached_refusedAudit : Reached Started Event.step (fun _ _ => True) refusedAudit :=
  .step _ (.init ⟨none, rfl⟩) trivial

/-- A claim that follows moves the node, and the next `_update` writes it down. -/
def nextClaim : Event := ⟨{}, .claim { uuid := 2, memory := 4 } none none⟩

/-- The audit of the next minute finds the same node.  It returns, and the row was never written. -/
def sameAudit : Event := ⟨{}, oneContainer⟩

end Tracker

end Zun
