import Zun.Compute.Failing
import Zun.Compute.TaskState
import Zun.Effect.Run

/-!
# Hosts of records

The scheduler gives a record its host, and the create claims room there.  What comes after takes the host away at
most: a record is never given another one, and one that is gone does not come back.
-/

namespace Zun

open Effect Prog World

namespace Manager

variable {env : Env} {d : Drivers} {u : Uuid} {before : Option Record} {s : World}

/-- Where the record was before, or nowhere. -/
def AtMost (before : Option Record) (host : Option Host) : Prop := ∃ b ∈ before, host = b.host ∨ host = none

/-- The row, if there is one, was there before, and is where it was or nowhere. -/
def Stays (u : Uuid) (before : Option Record) (s : World) : Prop := ∀ r, s.db u = some r → AtMost before r.host

/-- The row stays, and the object would have it stay. -/
structure Sited (u : Uuid) (before : Option Record) (s : World) : Prop where
  row : Stays u before s
  obj : AtMost before (s.mem u).val.host

instance (u : Uuid) (before : Option Record) : Loose (Kept (Sited u before)) :=
  Loose.of fun _ _ hs h => ⟨by rw [Stays, hs.db]; exact h.row, by rw [hs.mem]; exact h.obj⟩

theorem Sited.setMem {v : Uuid} {f : Obj → Obj}
    (hf : ∀ o, (f o).val.host = o.val.host ∨ (f o).val.host = none) (h : Sited u before s) :
    Sited u before (s.setMem v f) := by
  refine ⟨h.row, ?_⟩
  by_cases hv : u = v
  · subst hv
    obtain ⟨b, hb, hhost⟩ := h.obj
    rw [setMem_mem_self]
    exact ⟨b, hb, (hf (s.mem u)).elim (fun heq => heq ▸ hhost) .inr⟩
  · rw [setMem_mem_of_ne hv]
    exact h.obj

instance (u : Uuid) (before : Option Record) : Tolerant (Kept (Sited u before)) where
  assign hf h := h.setMem hf.host
  save {s v row} hrow h := by
    refine ⟨fun r hr => ?_, by rw [saved_val]; exact h.obj⟩
    by_cases hv : u = v
    · subst hv
      rw [saved_db_self, Option.some.injEq] at hr
      subst hr
      obtain hhost | hhost := merged_host (u := u) (s := s) row
      · exact hhost ▸ h.obj
      · exact hhost ▸ h.row row hrow
    · rw [saved_db_of_ne hv] at hr
      exact h.row r hr

theorem sited_updateTaskState {α : Type} {v : Uuid} {t : TaskState} {body : Prog World Exn α}
    (hbody : Within (Kept (Sited u before)) body) :
    Within (Kept (Sited u before)) (updateTaskState env v t body) :=
  within_updateTaskState (fun _ _ h => h.setMem fun _ => .inl rfl) hbody

theorem sited_doContainerDelete (hd : d.Lawful) (x : Subject) (force : Bool) :
    Within (Kept (Sited u before)) (doContainerDelete env d x force) := by
  have hdestroy : Within (Kept (Sited u before)) (destroy env x.uuid (members x)) := fun s h =>
    wp_destroy (Q := fun _ s' => Sited u before s') (fun _ => h)
      ⟨fun r hr => h.row r (db_of_dropRows hr).2, h.obj⟩ (fun _ => ⟨h.row, h.obj⟩) ⟨h.row, h.obj⟩
  refine (within_ask _ _ rfl).bind fun _ => ?_
  refine (sited_updateTaskState (within_deleteOwned hd x force)).bind fun _ => ?_
  exact (within_plain _ rfl).swallow.bind fun _ => (within_releaseAllocation x).bind fun _ => hdestroy

/-- A thread works on the object that it has brought up to date, whatever it was handed. -/
theorem stays_whenCaughtUp {op : Prog World Exn Unit} (hop : Within (Kept (Sited u before)) op)
    (h : Stays u before s) : wp (whenCaughtUp env u op) (fun _ s' => Stays u before s') s :=
  wp_whenCaughtUp_cases
    (fun row hrow => wp_mono (hop.wp _) fun _ _ hkept =>
      (hkept ⟨h, by rw [setMem_mem_self]; exact h row hrow⟩).row)
    (fun _ => h) (fun _ => h) h

theorem stays_thread (hd : d.Lawful) {x : Subject} (op : Operation) (h : Stays x.uuid before s) :
    wp (thread env d x op) (fun _ s' => Stays x.uuid before s') s := by
  have hquiet {t : TaskState} {method : Uuid → Prog World Exn Unit} (hm : ∀ u, Gentle (method u)) :
      wp (whenCaughtUp env x.uuid (quietly env x.uuid t method)) (fun _ s' => Stays x.uuid before s') s :=
    stays_whenCaughtUp (sited_updateTaskState (hm _ _)).swallow h
  have hstart : Within (Kept (Sited x.uuid before)) (doContainerStart env d x.uuid) :=
    sited_updateTaskState (within_startOwned hd _)
  cases op with
  | start => exact stays_whenCaughtUp hstart h
  | stop => exact hquiet hd.driver.stop
  | reboot => exact hquiet hd.driver.reboot
  | pause => exact hquiet hd.driver.pause
  | unpause => exact hquiet hd.driver.unpause
  | kill => exact hquiet hd.driver.kill
  | rebuild run =>
      refine stays_whenCaughtUp (sited_updateTaskState (Within.bind ?_ fun _ => hstart.onlyIf)) h
      exact within_rebuildSteps hd fun _ _ => sited_updateTaskState (within_createOwned hd (.container _) _ _)
  | delete force =>
      have hdelete : wp (whenCaughtUp env x.uuid (doContainerDelete env d x force))
          (fun _ s' => Stays x.uuid before s') s := stays_whenCaughtUp (sited_doContainerDelete hd x force) h
      cases x with
      | container u => exact hdelete
      | member u => exact hdelete
      | capsule c =>
          change wp (tryFinally (whenCaughtUp env c.uuid (doContainerDelete env d (.capsule c) force))
            (forgetAbandoned c.uuid)) _ s
          rw [wp_tryFinally]
          refine wp_mono hdelete fun r s' hr => ?_
          cases r <;> exact hr

/-- An operation that is handed to the manager of a node, with the object that goes along. -/
structure Handed where
  env : Env
  drivers : Drivers
  operation : Operation
  object : Obj

/-- What the thread of it makes of the world. -/
def Handed.serve (x : Subject) (q : Handed) (s : World) : World :=
  (thread q.env q.drivers x q.operation (s.setMem x.uuid fun _ => q.object)).2

/-- In every run of operations on a record, with any drivers that keep to what the manager relies on, whatever
fails and however stale the objects are that are handed over, the record stays where it was or loses its host for
good, and once it is gone it stays so. -/
theorem stays_of_reached {x : Subject}
    (h : Reached (fun s => s.db x.uuid = before) (Handed.serve x) (fun q _ => q.drivers.Lawful) s) :
    Stays x.uuid before s := by
  refine h.invariant (fun s hs r hr => ?_) fun q s hd hs => ?_
  · exact ⟨r, hs.symm.trans hr, .inl rfl⟩
  · exact stays_thread hd q.operation hs

/-- A start that is handed an object of another host. -/
theorem stays_misplaced : Stays 1 (some { status := .stopped, host := some "node" })
    (Handed.serve (.container 1) ⟨{}, defaultDrivers {}, .start, .of { status := .stopped, host := some "other" }⟩
      (ofRows [(1, { status := .stopped, host := some "node" })])) :=
  stays_of_reached (.step _ (.init rfl) (defaultDrivers_lawful _))

end Manager

end Zun
