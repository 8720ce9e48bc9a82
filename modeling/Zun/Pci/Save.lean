import Mathlib.Data.List.Basic
import Mathlib.Data.List.Chain
import Zun.Objects.PciDevice

/-!
# Saving the tracked devices

`PciDevTracker.save` of `zun/pci/manager.py` goes through the list of the devices and takes out of it those
that are gone.  The loop goes by position, so after a device that was taken out it comes to the second next:
the one in between is neither written nor destroyed.
-/

namespace Zun

namespace PciSave

open Pci

/-! ## The loop -/

/-- A tracked device; `rest` is what else `compare_pci_device_attributes` compares. -/
structure Tracked (α : Type) where
  address : Address
  status : Pci.Status
  rest : α
  /-- `obj_what_changed`. -/
  changed : List String

/-- What goes to the database. -/
inductive Call (α : Type) where
  /-- `update_pci_device`, with the changed fields of the device. -/
  | update (d : Tracked α)
  /-- `destroy_pci_device`. -/
  | destroy (address : Address)

variable {α : Type}

/-- `PciDevice.__eq__`. -/
def Tracked.same [DecidableEq α] (a b : Tracked α) : Bool :=
  a.address = b.address && a.status = b.status && a.rest = b.rest

/-- `PciDevice.save`. -/
def saveDevice (d : Tracked α) : Tracked α × List (Call α) :=
  match d.status with
  | .removed => ({ d with status := .deleted, changed := d.changed.insert "status" }, [.destroy d.address])
  | .deleted => (d, [])
  | _ => (d, [.update d])

/-- The list once the device at a position is saved: it goes if it is deleted. -/
def settle [DecidableEq α] (devs : List (Tracked α)) (i : Nat) (dev : Tracked α) : List (Tracked α) :=
  if dev.status = .deleted then (devs.set i dev).eraseP (·.same dev) else devs.set i dev

theorem length_settle [DecidableEq α] (devs : List (Tracked α)) (i : Nat) (dev : Tracked α) :
    (settle devs i dev).length ≤ devs.length := by
  rw [settle]
  split
  · exact Nat.le_trans List.length_eraseP_le (Nat.le_of_eq List.length_set)
  · exact (Nat.le_of_eq List.length_set)

/-- `PciDevTracker.save`, from a position on: the devices then, and what went to the database; `none` if it
raised. -/
def saveFrom [DecidableEq α] (raises : Call α → Bool) (i : Nat) (devs : List (Tracked α)) :
    Option (List (Tracked α) × List (Call α)) :=
  match _h : devs[i]? with
  | none => some (devs, [])
  | some dev =>
      if dev.changed = [] then saveFrom raises (i + 1) devs
      else
        let (dev, calls) := saveDevice dev
        if calls.any raises then none
        else
          (saveFrom raises (i + 1) (settle devs i dev)).map fun r => (r.1, calls ++ r.2)
termination_by devs.length - i
decreasing_by
  all_goals
    have hi : i < devs.length := (List.getElem?_eq_some_iff.mp ‹_›).1
  · omega
  · have hsettle := length_settle devs i dev
    omega

/-- The tracked devices of a node; no two are at one address. -/
structure Tracker (α : Type) where
  devs : List (Tracked α)
  nodup : (devs.map (·.address)).Nodup

def Tracker.save [DecidableEq α] (raises : Call α → Bool) (t : Tracker α) :
    Option (List (Tracked α) × List (Call α)) :=
  saveFrom raises 0 t.devs

/-! ## What should come of it -/

/-- The device is not on the host any more. -/
def Tracked.gone (d : Tracked α) : Bool := d.status = .removed || d.status = .deleted

/-- A device is written if it changed, and destroyed if it is gone. -/
structure Done (calls : List (Call α)) (d : Tracked α) : Prop where
  written : d.changed ≠ [] → d.gone = false → .update d ∈ calls
  destroyed : d.gone = true → .destroy d.address ∈ calls

/-- Every device is done, and those that are left are those that are not gone. -/
structure Saved (devs left : List (Tracked α)) (calls : List (Call α)) : Prop where
  done : ∀ d ∈ devs, Done calls d
  left : left = devs.filter fun d => !d.gone

/-- A device that is gone is newly so, and the one after it has not changed. -/
structure Calm (devs : List (Tracked α)) : Prop where
  removed : ∀ d ∈ devs, d.gone = true → d.status = .removed ∧ d.changed ≠ []
  next : devs.IsChain fun d e => d.gone = true → e.changed = []
/-! ## What comes of it -/

/-- The loop, without positions. -/
def sweep : List (Tracked α) → List (Tracked α) × List (Call α)
  | [] => ([], [])
  | d :: rest =>
      if d.changed = [] then (d :: (sweep rest).1, (sweep rest).2)
      else if d.gone then
        match rest with
        | [] => ([], (saveDevice d).2)
        | e :: rest => (e :: (sweep rest).1, (saveDevice d).2 ++ (sweep rest).2)
      else (d :: (sweep rest).1, (saveDevice d).2 ++ (sweep rest).2)

def Call.address : Call α → Address
  | .update d => d.address
  | .destroy address => address

section

variable {raises : Call α → Bool} {devs rest : List (Tracked α)} {d e : Tracked α} {calls : List (Call α)}

theorem sweep_unchanged (h : d.changed = []) : sweep (d :: rest) = (d :: (sweep rest).1, (sweep rest).2) := by
  cases rest <;> simp [sweep, h]

theorem sweep_not_gone (hchanged : d.changed ≠ []) (hgone : d.gone = false) :
    sweep (d :: rest) = (d :: (sweep rest).1, (saveDevice d).2 ++ (sweep rest).2) := by
  cases rest <;> simp [sweep, hchanged, hgone]

theorem sweep_gone (hchanged : d.changed ≠ []) (hgone : d.gone = true) :
    sweep (d :: e :: rest) = (e :: (sweep rest).1, (saveDevice d).2 ++ (sweep rest).2) := by
  simp [sweep, hchanged, hgone]

theorem saveDevice_gone (h : d.gone = true) :
    (saveDevice d).1.address = d.address ∧ (saveDevice d).1.status = .deleted := by
  simp only [Tracked.gone, Bool.or_eq_true, decide_eq_true_eq] at h
  obtain h | h := h <;> simp [saveDevice, h]

theorem saveDevice_not_gone (h : d.gone = false) : saveDevice d = (d, [.update d]) := by
  simp only [Tracked.gone, Bool.or_eq_false_iff, decide_eq_false_iff_not] at h
  cases hstatus : d.status <;> simp_all [saveDevice]

theorem saveDevice_address : ∀ c ∈ (saveDevice d).2, c.address = d.address := by
  cases hstatus : d.status <;> simp [saveDevice, hstatus, Call.address]

/-- A device that is deleted is the one that goes. -/
theorem settle_gone [DecidableEq α] (done : List (Tracked α)) (hnodup : ((done ++ d :: rest).map (·.address)).Nodup)
    (h : d.gone = true) : settle (done ++ d :: rest) done.length (saveDevice d).1 = done ++ rest := by
  obtain ⟨haddress, hstatus⟩ := saveDevice_gone h
  generalize saveDevice d = saved at haddress hstatus ⊢
  have hdone : ∀ x ∈ done, ¬ x.same saved.1 = true := by
    intro x hx hsame
    simp only [Tracked.same, Bool.and_eq_true, decide_eq_true_eq] at hsame
    rw [List.map_append, List.map_cons, List.nodup_append] at hnodup
    exact hnodup.2.2 x.address (List.mem_map_of_mem hx) d.address (List.mem_cons_self ..)
      (hsame.1.1.trans haddress)
  rw [settle, if_pos hstatus, List.set_append_right _ _ (Nat.le_refl _), Nat.sub_self, List.set_cons_zero,
    List.eraseP_append_right _ hdone, List.eraseP_cons_of_pos (by simp [Tracked.same])]

theorem saveFrom_length [DecidableEq α] (raises : Call α → Bool) (done : List (Tracked α)) :
    saveFrom raises done.length done = some (done, []) := by
  rw [saveFrom]
  split
  next => rfl
  next _ heq => simp at heq

theorem saveFrom_cons [DecidableEq α] (raises : Call α → Bool) (done rest : List (Tracked α))
    (d : Tracked α) : saveFrom raises done.length (done ++ d :: rest) =
      if d.changed = [] then saveFrom raises (done.length + 1) (done ++ d :: rest)
      else if (saveDevice d).2.any raises then none
      else (saveFrom raises (done.length + 1) (settle (done ++ d :: rest) done.length (saveDevice d).1)).map
        fun r => (r.1, (saveDevice d).2 ++ r.2) := by
  rw [saveFrom]
  split
  next heq => simp at heq
  next dev heq =>
    rw [List.getElem?_append_right (Nat.le_refl _), Nat.sub_self, List.getElem?_cons_zero,
      Option.some.injEq] at heq
    rw [heq]

/-- Where it returns, the loop goes on behind a device that is gone with the second next. -/
theorem saveFrom_append [DecidableEq α] (done : List (Tracked α))
    (hnodup : ((done ++ rest).map (·.address)).Nodup) {r : List (Tracked α) × List (Call α)}
    (h : saveFrom raises done.length (done ++ rest) = some r) :
    r = (done ++ (sweep rest).1, (sweep rest).2) := by
  have hstep : ∀ (done rest : List (Tracked α)) (d : Tracked α),
      saveFrom raises (done.length + 1) (done ++ d :: rest) =
        saveFrom raises (done ++ [d]).length ((done ++ [d]) ++ rest) := by
    simp
  induction rest using sweep.induct generalizing done r with
  | case1 =>
      rw [List.append_nil, saveFrom_length, Option.some.injEq] at h
      simp [← h, sweep]
  | case2 d rest hchanged ih =>
      rw [saveFrom_cons, if_pos hchanged, hstep] at h
      rw [ih (done ++ [d]) (by simpa using hnodup) h, sweep_unchanged hchanged]
      simp
  | case3 d hchanged hgone =>
      rw [saveFrom_cons, if_neg hchanged, settle_gone done hnodup hgone, List.append_nil] at h
      have hend : saveFrom raises (done.length + 1) done = some (done, []) := by
        rw [saveFrom]
        split
        next => rfl
        next _ heq => simp at heq
      rw [hend] at h
      split at h
      · cases h
      · cases h
        simp [sweep, hchanged, hgone]
  | case4 d hchanged hgone e rest ih =>
      rw [saveFrom_cons, if_neg hchanged, settle_gone done hnodup hgone, hstep] at h
      split at h
      · cases h
      · obtain ⟨r', hr', rfl⟩ := Option.map_eq_some_iff.mp h
        have hnodup' : (((done ++ [e]) ++ rest).map (·.address)).Nodup := by
          refine List.Nodup.sublist ?_ hnodup
          simp
        rw [ih (done ++ [e]) hnodup' hr', sweep_gone hchanged hgone]
        simp
  | case5 d rest hchanged hgone ih =>
      have hgone : d.gone = false := by simpa using hgone
      have hsave := saveDevice_not_gone hgone
      have hsettle : settle (done ++ d :: rest) done.length d = done ++ d :: rest := by
        have hstatus : d.status ≠ .deleted := by
          intro hdeleted
          simp [Tracked.gone, hdeleted] at hgone
        rw [settle, if_neg hstatus, List.set_append_right _ _ (Nat.le_refl _), Nat.sub_self,
          List.set_cons_zero]
      rw [saveFrom_cons, if_neg hchanged, hsave, hsettle, hstep] at h
      split at h
      · cases h
      · obtain ⟨r', hr', rfl⟩ := Option.map_eq_some_iff.mp h
        rw [ih (done ++ [d]) (by simpa using hnodup) hr', sweep_not_gone hchanged hgone, hsave]
        simp

/-! ### One device more -/

theorem sweep_address : ∀ c ∈ (sweep devs).2, c.address ∈ devs.map (·.address) := by
  have hsave : ∀ (d : Tracked α) (rest : List (Tracked α)), ∀ c ∈ (saveDevice d).2,
      c.address ∈ (d :: rest).map (·.address) :=
    fun d rest c hc => saveDevice_address c hc ▸ List.mem_cons_self ..
  induction devs using sweep.induct with
  | case1 => simp [sweep]
  | case2 d rest hchanged ih =>
      rw [sweep_unchanged hchanged]
      exact fun c hc => List.mem_cons_of_mem _ (ih c hc)
  | case3 d hchanged hgone =>
      simp only [sweep, if_neg hchanged, if_pos hgone]
      exact hsave d []
  | case4 d hchanged hgone e rest ih =>
      rw [sweep_gone hchanged hgone]
      exact List.forall_mem_append.mpr
        ⟨hsave d _, fun c hc => List.mem_cons_of_mem _ (List.mem_cons_of_mem _ (ih c hc))⟩
  | case5 d rest hchanged hgone ih =>
      rw [sweep_not_gone hchanged (by simpa using hgone)]
      exact List.forall_mem_append.mpr ⟨hsave d _, fun c hc => List.mem_cons_of_mem _ (ih c hc)⟩

/-- Calls about other devices do not matter. -/
theorem done_append_iff {c : List (Call α)} (h : ∀ x ∈ c, x.address ≠ d.address) :
    Done (c ++ calls) d ↔ Done calls d := by
  have hupdate : Call.update d ∉ c := fun hmem => h _ hmem rfl
  have hdestroy : Call.destroy d.address ∉ c := fun hmem => h _ hmem rfl
  constructor
  · intro hdone
    exact ⟨fun hchanged hgone => by simpa [hupdate] using hdone.written hchanged hgone,
      fun hgone => by simpa [hdestroy] using hdone.destroyed hgone⟩
  · intro hdone
    exact ⟨fun hchanged hgone => List.mem_append_right _ (hdone.written hchanged hgone),
      fun hgone => List.mem_append_right _ (hdone.destroyed hgone)⟩

theorem done_append_iff_left {c : List (Call α)} (h : ∀ x ∈ calls, x.address ≠ d.address) :
    Done (c ++ calls) d ↔ Done c d := by
  have hupdate : Call.update d ∉ calls := fun hmem => h _ hmem rfl
  have hdestroy : Call.destroy d.address ∉ calls := fun hmem => h _ hmem rfl
  constructor
  · intro hdone
    exact ⟨fun hchanged hgone => by simpa [hupdate] using hdone.written hchanged hgone,
      fun hgone => by simpa [hdestroy] using hdone.destroyed hgone⟩
  · intro hdone
    exact ⟨fun hchanged hgone => List.mem_append_left _ (hdone.written hchanged hgone),
      fun hgone => List.mem_append_left _ (hdone.destroyed hgone)⟩

/-- A device that no call is about is done if there is nothing to do. -/
theorem done_nil_iff : Done ([] : List (Call α)) d ↔ d.changed = [] ∧ d.gone = false := by
  constructor
  · intro h
    have hgone : d.gone = false := by
      rw [← Bool.not_eq_true]
      exact fun hgone => nomatch h.destroyed hgone
    exact ⟨by_contra fun hchanged => (nomatch h.written hchanged hgone), hgone⟩
  · rintro ⟨hchanged, hgone⟩
    exact ⟨fun h _ => absurd hchanged h, fun h => absurd (hgone.symm.trans h) Bool.false_ne_true⟩

theorem done_saveDevice_iff : Done (saveDevice d).2 d ↔ d.status ≠ .deleted := by
  constructor
  · intro h hdeleted
    have hmem := h.destroyed (by simp [Tracked.gone, hdeleted])
    simp [saveDevice, hdeleted] at hmem
  · intro hstatus
    cases hgone : d.gone with
    | false => exact ⟨fun _ _ => by simp [saveDevice_not_gone hgone], fun h => by simp [hgone] at h⟩
    | true =>
        have hremoved : d.status = .removed := by simpa [Tracked.gone, hstatus] using hgone
        exact ⟨fun _ h => by simp [hgone] at h, fun _ => by simp [saveDevice, hremoved]⟩

/-! ### All of them -/

theorem Saved.head {c : List (Call α)} {left : List (Tracked α)} (h : Saved (d :: rest) left (c ++ calls))
    (hnodup : ((d :: rest).map (·.address)).Nodup) (hcalls : ∀ x ∈ calls, x.address ∈ rest.map (·.address)) :
    Done c d := by
  rw [List.map_cons, List.nodup_cons] at hnodup
  exact (done_append_iff_left fun x hx heq => hnodup.1 (heq ▸ hcalls x hx)).mp
    (h.done d (List.mem_cons_self ..))

theorem saved_cons_iff (left : List (Tracked α)) {c : List (Call α)} (calls : List (Call α))
    (hnodup : ((d :: rest).map (·.address)).Nodup) (hc : ∀ x ∈ c, x.address = d.address)
    (hcalls : ∀ x ∈ calls, x.address ∈ rest.map (·.address)) :
    Saved (d :: rest) (if d.gone then left else d :: left) (c ++ calls) ↔ Done c d ∧ Saved rest left calls := by
  have hrest : ∀ x ∈ rest, Done (c ++ calls) x ↔ Done calls x := by
    intro x hx
    rw [List.map_cons, List.nodup_cons] at hnodup
    exact done_append_iff fun y hy heq => hnodup.1 (((hc y hy).symm.trans heq) ▸ List.mem_map_of_mem hx)
  have hleft : ((if d.gone then left else d :: left) = (d :: rest).filter fun d => !d.gone) ↔
      left = rest.filter fun d => !d.gone := by
    cases hgone : d.gone <;> simp [hgone]
  constructor
  · intro h
    exact ⟨h.head hnodup hcalls, fun x hx => (hrest x hx).mp (h.done x (List.mem_cons_of_mem _ hx)),
      hleft.mp h.left⟩
  · rintro ⟨hdone, h⟩
    rw [List.map_cons, List.nodup_cons] at hnodup
    refine ⟨List.forall_mem_cons.mpr ⟨?_, fun x hx => (hrest x hx).mpr (h.done x hx)⟩, hleft.mpr h.left⟩
    exact (done_append_iff_left fun x hx heq => hnodup.1 (heq ▸ hcalls x hx)).mpr hdone

theorem calm_cons_iff : Calm (d :: rest) ↔
    (d.gone = true → d.status = .removed ∧ d.changed ≠ []) ∧
      (∀ e ∈ rest.head?, d.gone = true → e.changed = []) ∧ Calm rest := by
  constructor
  · intro h
    obtain ⟨hd, hrest⟩ := List.forall_mem_cons.mp h.removed
    obtain ⟨hhead, hchain⟩ := List.isChain_cons.mp h.next
    exact ⟨hd, hhead, hrest, hchain⟩
  · rintro ⟨hd, hhead, h⟩
    exact ⟨List.forall_mem_cons.mpr ⟨hd, h.removed⟩, List.isChain_cons.mpr ⟨hhead, h.next⟩⟩

/-- A device that is passed over. -/
theorem saved_passed_iff {left : List (Tracked α)} (hnodup : ((d :: rest).map (·.address)).Nodup)
    (hcalls : ∀ x ∈ calls, x.address ∈ rest.map (·.address)) :
    Saved (d :: rest) (d :: left) calls ↔ d.changed = [] ∧ d.gone = false ∧ Saved rest left calls := by
  have hcons := saved_cons_iff (c := []) left calls hnodup nofun hcalls
  rw [List.nil_append, done_nil_iff] at hcons
  cases hgone : d.gone with
  | false => simpa [hgone] using hcons
  | true =>
      refine ⟨fun h => ?_, fun h => absurd h.2.1.symm Bool.false_ne_true⟩
      have hdone := h.head (c := []) hnodup hcalls
      exact absurd ((done_nil_iff.mp hdone).2.symm.trans hgone) Bool.false_ne_true

theorem saved_sweep_iff (hnodup : (devs.map (·.address)).Nodup) :
    Saved devs (sweep devs).1 (sweep devs).2 ↔ Calm devs := by
  have hremoved : ∀ d : Tracked α, d.gone = true → (d.status ≠ .deleted ↔ d.status = .removed) := by
    intro d hgone
    simp only [Tracked.gone, Bool.or_eq_true, decide_eq_true_eq] at hgone
    obtain h | h := hgone <;> simp [h]
  have hsaved : Saved (α := α) [] [] [] := ⟨nofun, rfl⟩
  have hcalm : Calm (α := α) [] := ⟨nofun, .nil⟩
  induction devs using sweep.induct with
  | case1 => exact ⟨fun _ => hcalm, fun _ => hsaved⟩
  | case2 d rest hchanged ih =>
      have hrest : Saved rest (sweep rest).1 (sweep rest).2 ↔ Calm rest := ih (List.nodup_cons.mp hnodup).2
      rw [sweep_unchanged hchanged, saved_passed_iff hnodup sweep_address, hrest, calm_cons_iff]
      cases hgone : d.gone <;> simp [hchanged]
  | case3 d hchanged hgone =>
      have hcons := saved_cons_iff (c := (saveDevice d).2) [] [] hnodup
        saveDevice_address nofun
      rw [if_pos hgone, List.append_nil, done_saveDevice_iff, hremoved d hgone] at hcons
      simp only [sweep, if_neg hchanged, if_pos hgone, hcons, calm_cons_iff]
      simp [hgone, hchanged, hsaved, hcalm]
  | case4 d hchanged hgone e rest ih =>
      have hnodup' := (List.nodup_cons.mp hnodup).2
      have hcons := saved_cons_iff (e :: (sweep rest).1) (sweep rest).2 hnodup
        saveDevice_address fun x hx => List.mem_cons_of_mem _ (sweep_address x hx)
      have hrest : Saved rest (sweep rest).1 (sweep rest).2 ↔ Calm rest := ih (List.nodup_cons.mp hnodup').2
      rw [if_pos hgone, done_saveDevice_iff, hremoved d hgone, saved_passed_iff hnodup' sweep_address,
        hrest] at hcons
      rw [sweep_gone hchanged hgone, hcons, calm_cons_iff, calm_cons_iff]
      -- the device that is skipped has nothing to be done
      cases hskipped : e.gone with
      | false => simp [hgone, hchanged]
      | true => simp +contextual [hgone, hchanged]
  | case5 d rest hchanged hgone ih =>
      have hgone : d.gone = false := by simpa using hgone
      have hstatus : d.status ≠ .deleted := by
        intro hdeleted
        simp [Tracked.gone, hdeleted] at hgone
      have hcons := saved_cons_iff (sweep rest).1 (sweep rest).2 hnodup saveDevice_address sweep_address
      have hrest : Saved rest (sweep rest).1 (sweep rest).2 ↔ Calm rest := ih (List.nodup_cons.mp hnodup).2
      rw [hgone, if_neg Bool.false_ne_true, done_saveDevice_iff, hrest] at hcons
      rw [sweep_not_gone hchanged hgone, hcons, calm_cons_iff]
      simp [hgone, hstatus]

end

/-- A call of `save` that returns has written every device that changed, destroyed every one that is gone
and left the others, if and only if those that are gone are newly so and none is followed by a device that
changed. -/
theorem saved_iff_calm [DecidableEq α] (t : Tracker α) (raises : Call α → Bool) {left : List (Tracked α)}
    {calls : List (Call α)} (h : t.save raises = some (left, calls)) :
    Saved t.devs left calls ↔ Calm t.devs := by
  have hsweep := saveFrom_append [] t.nodup h
  rw [List.nil_append, Prod.mk.injEq] at hsweep
  rw [hsweep.1, hsweep.2, saved_sweep_iff t.nodup]

/-- Where the database refuses nothing, the call returns. -/
theorem saveFrom_isSome [DecidableEq α] (i : Nat) (devs : List (Tracked α)) :
    (saveFrom (fun _ => false) i devs).isSome = true := by
  fun_induction saveFrom (fun _ : Call α => false) i devs with
  | case1 => rfl
  | case2 _ _ _ _ _ ih => exact ih
  | case3 => simp_all
  | case4 => simp_all

theorem save_eq_sweep [DecidableEq α] (t : Tracker α) : t.save (fun _ => false) = some (sweep t.devs) := by
  obtain ⟨r, hr⟩ := Option.isSome_iff_exists.mp (saveFrom_isSome 0 t.devs)
  rw [Tracker.save, hr, saveFrom_append [] t.nodup hr]
  rfl

/-- A removed device, one that did not change, and one that did. -/
theorem saved_of_calm_tracker :
    let devs : List (Tracked Unit) :=
      [⟨"0", .removed, (), ["status"]⟩, ⟨"1", .available, (), []⟩, ⟨"2", .claimed, (), ["status"]⟩]
    Saved devs (sweep devs).1 (sweep devs).2 :=
  (saved_iff_calm ⟨_, by decide⟩ _ (save_eq_sweep _)).mpr
    ⟨by simp [Tracked.gone], by simp [Tracked.gone]⟩

/-- Of two removed devices, the second is neither destroyed nor forgotten. -/
theorem not_saved : ¬ ∀ (t : Tracker Unit) (raises : Call Unit → Bool) (left : List (Tracked Unit))
    (calls : List (Call Unit)), t.save raises = some (left, calls) → Saved t.devs left calls := by
  intro h
  have hsaved := h ⟨[⟨"0", .removed, (), ["status"]⟩, ⟨"1", .removed, (), ["status"]⟩], by decide⟩ _ _ _
    (save_eq_sweep _)
  have hleft := hsaved.left
  simp [sweep, Tracked.gone] at hleft

end PciSave

end Zun
