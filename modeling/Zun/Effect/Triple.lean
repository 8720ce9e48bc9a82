import Zun.Effect.Prog

/-!
# Programs between two sets of states

Two triples.  `Leads I J p` says that a run of `p` from `I` that was not stopped ends in `J`,
whether it returned or raised.  `Achieves I J p` says that a run of `p` from `I` returns, and ends
in `J`.
-/

namespace Effect

variable {σ ε α β : Type}

namespace Prog

/-! ## Ending in a set -/

/-- From a state in `I`, a run of `p` that is not stopped ends in `J`. -/
def Leads (I J : σ → Prop) (p : Prog σ ε α) : Prop :=
  ∀ s, I s → wp p (fun r s' => r ≠ .halt → J s') s

section Leads

variable {I J K : σ → Prop}

theorem Within.leads {p : Prog σ ε α} (h : Within (Kept I) p) : Leads I I p := fun s hs _ => h s hs

theorem Leads.weaken {p : Prog σ ε α} (h : Leads I J p) (hJK : ∀ s, J s → K s) : Leads I K p :=
  fun s hs hr => hJK _ (h s hs hr)

/-- A set that is kept all along. -/
theorem Leads.and {p : Prog σ ε α} (h : Leads I J p) (hp : Within (Kept K) p) :
    Leads (fun s => I s ∧ K s) (fun s => J s ∧ K s) p :=
  fun s hs hr => ⟨h s hs.1 hr, hp s hs.2⟩

/-- A program that raises on the way ends where the rest of the way begins. -/
theorem Leads.bind {p : Prog σ ε α} {f : α → Prog σ ε β} (hp : Leads I J p)
    (hf : ∀ a, Leads J K (f a)) (hJK : ∀ s, J s → K s) : Leads I K (p >>= f) := by
  intro s hs
  rw [wp_bind]
  refine wp_mono (hp s hs) fun r s' hr => ?_
  cases r with
  | ok a => exact hf a s' (hr nofun)
  | raise e => exact fun _ => hJK s' (hr nofun)
  | halt => exact fun h => absurd rfl h

theorem Leads.reraising {p : Prog σ ε α} {h : ε → Prog σ ε Unit} (hp : Leads I J p)
    (hh : ∀ e, Within (Kept J) (h e)) : Leads I J (reraising p h) := by
  intro s hs
  rw [wp_reraising]
  refine wp_mono (hp s hs) fun r s' hr => ?_
  cases r with
  | ok a => exact fun _ => hr nofun
  | raise e =>
      have hend := ((hh e).andThen fun _ => within_raise (α := α) e) s' (hr nofun)
      exact fun _ => hend
  | halt => exact fun h => absurd rfl h

theorem Leads.tryFinally {p : Prog σ ε α} {q : Prog σ ε Unit} (hp : Leads I J p)
    (hq : Within (Kept J) q) : Leads I J (tryFinally p q) := by
  intro s hs
  rw [wp_tryFinally]
  refine wp_mono (hp s hs) fun r s' hr => ?_
  cases r with
  | ok a =>
      have hend := (hq.andThen fun _ => within_ret (ε := ε) a) s' (hr nofun)
      rw [finallyPost_ok, ← wp_andThen]
      exact fun _ => hend
  | raise e =>
      have hend := (hq.andThen fun _ => within_raise (α := α) e) s' (hr nofun)
      rw [finallyPost_raise, ← wp_andThen]
      exact fun _ => hend
  | halt => exact fun h => absurd rfl h

theorem leads_ite {c : Prop} [Decidable c] {p q : Prog σ ε α} (hp : Leads I J p)
    (hq : Leads I J q) : Leads I J (if c then p else q) := by
  split
  · exact hp
  · exact hq

end Leads

/-! ## Returning in a set -/

/-- From a state in `I`, a run of `p` returns, and ends in `J`. -/
def Achieves (I J : σ → Prop) (p : Prog σ ε α) : Prop :=
  ∀ s, I s → wp p (fun r s' => (∃ a, r = .ok a) ∧ J s') s

section Achieves

variable {I J K : σ → Prop}

theorem achieves_ret (a : α) : Achieves I I (ret a : Prog σ ε α) := fun _ h => ⟨⟨a, rfl⟩, h⟩

theorem achieves_modify {f : σ → σ} (h : ∀ s, I s → J (f s)) :
    Achieves I J (modify f : Prog σ ε Unit) := fun s hs => ⟨⟨(), rfl⟩, h s hs⟩

theorem achieves_read (f : σ → α) : Achieves I I (read f : Prog σ ε α) :=
  fun s h => ⟨⟨f s, rfl⟩, h⟩

/-- A set that is kept all along. -/
theorem Achieves.and {p : Prog σ ε α} (h : Achieves I J p) (hp : Within (Kept K) p) :
    Achieves (fun s => I s ∧ K s) (fun s => J s ∧ K s) p := by
  intro s hs
  obtain ⟨hok, hJ⟩ := h s hs.1
  exact ⟨hok, hJ, hp s hs.2⟩

theorem Achieves.weaken {p : Prog σ ε α} (h : Achieves I J p) (hJK : ∀ s, J s → K s) :
    Achieves I K p := fun s hs => ⟨(h s hs).1, hJK _ (h s hs).2⟩

theorem Achieves.bind {p : Prog σ ε α} {f : α → Prog σ ε β} (hp : Achieves I J p)
    (hf : ∀ a, Achieves J K (f a)) : Achieves I K (p >>= f) := by
  intro s hs
  rw [wp_bind]
  refine wp_mono (hp s hs) ?_
  rintro r s' ⟨⟨a, rfl⟩, hs'⟩
  exact hf a s' hs'

theorem Achieves.tryExcept {p : Prog σ ε α} (h : ε → Prog σ ε α) (hp : Achieves I J p) :
    Achieves I J (tryExcept p h) := by
  intro s hs
  rw [wp_tryExcept]
  refine wp_mono (hp s hs) ?_
  rintro r s' ⟨⟨a, rfl⟩, hs'⟩
  exact ⟨⟨a, rfl⟩, hs'⟩

theorem Achieves.swallow {p : Prog σ ε Unit} (hp : Achieves I J p) : Achieves I J (swallow p) :=
  hp.tryExcept _

theorem Achieves.reraisingIf {p : Prog σ ε Unit} (h : ε → Prog σ ε Unit) (hp : Achieves I J p)
    (again : Bool) : Achieves I J (reraisingIf again p h) := by
  unfold Prog.reraisingIf
  split
  · exact hp.tryExcept _
  · exact hp.tryExcept _

theorem Achieves.tryFinally {p : Prog σ ε α} {q : Prog σ ε Unit} (hp : Achieves I J p)
    (hq : Achieves J K q) : Achieves I K (tryFinally p q) := by
  intro s hs
  rw [wp_tryFinally]
  refine wp_mono (hp s hs) ?_
  rintro r s' ⟨⟨a, rfl⟩, hs'⟩
  rw [finallyPost_ok]
  refine wp_mono (hq s' hs') ?_
  rintro r' s'' ⟨⟨b, rfl⟩, hs''⟩
  exact ⟨⟨a, rfl⟩, hs''⟩

theorem Achieves.onlyIf {c : Prop} [Decidable c] {p : Prog σ ε Unit} (hp : Achieves I I p) :
    Achieves I I (onlyIf c p) := by
  unfold Prog.onlyIf
  split
  · exact hp
  · exact achieves_ret ()

/-- A loop that gains one more set of a family in every turn. -/
theorem achieves_forEach {f : β → Prog σ ε Unit} {P : List β → σ → Prop} (bs : List β)
    (hf : ∀ b rest, (∃ before, bs = before ++ b :: rest) → Achieves (P (b :: rest)) (P rest) (f b)) :
    Achieves (P bs) (P []) (forEach bs f) := by
  have hgo : ∀ rest, (∃ before, bs = before ++ rest) → Achieves (P rest) (P []) (forEach rest f) := by
    intro rest
    induction rest with
    | nil => exact fun _ => achieves_ret ()
    | cons b rest ih =>
        rintro ⟨before, hbs⟩
        refine Achieves.bind (hf b rest ⟨before, hbs⟩) fun _ => ih ⟨before ++ [b], ?_⟩
        rw [hbs, List.append_assoc]
        rfl
  exact hgo bs ⟨[], rfl⟩

end Achieves

end Prog

end Effect
