/-!
# Runs

A system takes steps.  Which steps it can take in a state, and where each leads, is a
parameter.  `Reached` is the set of states that a run leads to whose steps all meet a
condition, and `Reached.invariant` is the induction over such a run.
-/

namespace Effect

variable {σ ι : Type}

/-- The states that a run leads to whose steps all meet `ok`. -/
inductive Reached (init : σ → Prop) (step : ι → σ → σ) (ok : ι → σ → Prop) : σ → Prop where
  | init {s : σ} : init s → Reached init step ok s
  | step {s : σ} (i : ι) : Reached init step ok s → ok i s → Reached init step ok (step i s)

namespace Reached

variable {init : σ → Prop} {step : ι → σ → σ} {ok : ι → σ → Prop} {s : σ}

/-- What holds at the beginning and is kept by every step that meets the condition holds in
every state of the run. -/
theorem invariant {I : σ → Prop} (h : Reached init step ok s) (hinit : ∀ s, init s → I s)
    (hstep : ∀ i s, ok i s → I s → I (step i s)) : I s := by
  induction h with
  | init h => exact hinit _ h
  | step i _ hok ih => exact hstep i _ hok ih

theorem mono {ok' : ι → σ → Prop} (h : Reached init step ok s) (hok : ∀ i s, ok i s → ok' i s) :
    Reached init step ok' s := by
  induction h with
  | init h => exact .init h
  | step i _ hi ih => exact ih.step i (hok i _ hi)

end Reached

/-- Take some steps one after the other. -/
def steps (step : ι → σ → σ) : List ι → σ → σ
  | [], s => s
  | i :: is, s => steps step is (step i s)

/-- Each of some steps meets the condition when its turn comes. -/
def Allowed (step : ι → σ → σ) (ok : ι → σ → Prop) : List ι → σ → Prop
  | [], _ => True
  | i :: is, s => ok i s ∧ Allowed step ok is (step i s)

/-- Any steps meet no condition. -/
theorem allowed_true (step : ι → σ → σ) (is : List ι) (s : σ) :
    Allowed step (fun _ _ => True) is s := by
  induction is generalizing s with
  | nil => trivial
  | cons i is ih => exact ⟨trivial, ih (step i s)⟩

theorem Reached.steps {init : σ → Prop} {step : ι → σ → σ} {ok : ι → σ → Prop} {s : σ}
    (h : Reached init step ok s) {is : List ι} (his : Allowed step ok is s) :
    Reached init step ok (steps step is s) := by
  induction is generalizing s with
  | nil => exact h
  | cons i is ih => exact ih (h.step i his.1) his.2

end Effect
