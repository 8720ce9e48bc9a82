import Zun.Effect.Prog

/-!
# Programs that return

`Completes p` says that every run of `p` returns.  It composes through every operator, and what a
handler catches needs nothing of its program but that it does not stop.  `embed` runs a program on a
part of a larger state.
-/

namespace Effect

namespace Prog

variable {σ τ ε ε' α β : Type}

/-- Every run returns. -/
def Completes (p : Prog σ ε α) : Prop := ∀ s, ∃ a, (p s).1 = .ok a

theorem completes_ret (a : α) : Completes (ret a : Prog σ ε α) := fun _ => ⟨a, rfl⟩

theorem completes_pure (a : α) : Completes (pure a : Prog σ ε α) := fun _ => ⟨a, rfl⟩

theorem completes_read (f : σ → α) : Completes (read f : Prog σ ε α) := fun s => ⟨f s, rfl⟩

theorem completes_modify (f : σ → σ) : Completes (modify f : Prog σ ε Unit) := fun _ => ⟨(), rfl⟩

theorem Completes.bind {p : Prog σ ε α} {f : α → Prog σ ε β} (hp : Completes p)
    (hf : ∀ a, Completes (f a)) : Completes (p >>= f) := by
  intro s
  obtain ⟨a, ha⟩ := hp s
  obtain ⟨b, hb⟩ := hf a (p s).2
  refine ⟨b, ?_⟩
  show (andThen p f s).1 = .ok b
  unfold andThen
  rw [show p s = (.ok a, (p s).2) from Prod.ext ha rfl]
  exact hb

theorem Completes.tryExcept {p : Prog σ ε α} (hp : Completes p) (h : ε → Prog σ ε α) :
    Completes (tryExcept p h) := by
  intro s
  obtain ⟨a, ha⟩ := hp s
  refine ⟨a, ?_⟩
  unfold Prog.tryExcept
  rw [show p s = (.ok a, (p s).2) from Prod.ext ha rfl]

theorem Completes.reraising {p : Prog σ ε α} (hp : Completes p) (h : ε → Prog σ ε Unit) :
    Completes (reraising p h) := hp.tryExcept _

theorem Completes.swallow {p : Prog σ ε Unit} (hp : Completes p) : Completes (swallow p) :=
  hp.tryExcept _

theorem Completes.onlyIf {p : Prog σ ε Unit} (hp : Completes p) (c : Prop) [Decidable c] :
    Completes (onlyIf c p) := by
  unfold Prog.onlyIf
  split
  · exact hp
  · exact completes_ret ()

theorem completes_forEach {f : β → Prog σ ε Unit} (hf : ∀ b, Completes (f b)) (bs : List β) :
    Completes (forEach bs f) := by
  induction bs with
  | nil => exact completes_ret ()
  | cons b bs ih => exact (hf b).bind fun _ => ih

/-- Run a program on a part of a state. -/
def embed (get : τ → σ) (set : τ → σ → τ) (raised : ε → ε') (p : Prog σ ε α) : Prog τ ε' α := fun t =>
  match p (get t) with
  | (.ok a, s) => (.ok a, set t s)
  | (.raise e, s) => (.raise (raised e), set t s)
  | (.halt, s) => (.halt, set t s)

theorem Completes.embed {p : Prog σ ε α} (hp : Completes p) (get : τ → σ) (set : τ → σ → τ)
    (raised : ε → ε') : Completes (embed get set raised p) := by
  intro t
  obtain ⟨a, ha⟩ := hp (get t)
  refine ⟨a, ?_⟩
  unfold Prog.embed
  rw [show p (get t) = (.ok a, (p (get t)).2) from Prod.ext ha rfl]

end Prog

end Effect
