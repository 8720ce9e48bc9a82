import Zun.Effect.Prog

/-!
# Programs watched at every stop

A triple with three ends.  `Watched H I J E p` says that a run of `p` from `I` returns in `J`, raises
in `E`, or stops in `H`.  A program can stop at every call it makes, so with one `H` for the whole
development the third end says what holds at every such point of a run.
-/

namespace Effect

variable {σ ε α β : Type}

namespace Prog

/-- A run has returned in `J`, raised in `E` or stopped in `H`. -/
def WatchedEnd (H : σ → Prop) (J : α → σ → Prop) (E : ε → σ → Prop) : Result ε α → σ → Prop
  | .ok a, s => J a s
  | .raise e, s => E e s
  | .halt, s => H s

/-- From `I`, a run of `p` returns in `J`, raises in `E` or stops in `H`. -/
def Watched (H I : σ → Prop) (J : α → σ → Prop) (E : ε → σ → Prop) (p : Prog σ ε α) : Prop :=
  ∀ s, I s → wp p (WatchedEnd H J E) s

section Watched

variable {H I I' : σ → Prop} {J J' : α → σ → Prop} {K : β → σ → Prop} {E E' : ε → σ → Prop}

theorem Watched.conseq {p : Prog σ ε α} (h : Watched H I J E p) (hI : ∀ s, I' s → I s)
    (hJ : ∀ a s, J a s → J' a s) (hE : ∀ e s, E e s → E' e s) : Watched H I' J' E' p := by
  intro s hs
  refine wp_mono (h s (hI s hs)) fun r s' hr => ?_
  cases r with
  | ok a => exact hJ a s' hr
  | raise e => exact hE e s' hr
  | halt => exact hr

theorem Watched.pre {p : Prog σ ε α} (h : Watched H I J E p) (hI : ∀ s, I' s → I s) :
    Watched H I' J E p := h.conseq hI (fun _ _ hs => hs) fun _ _ hs => hs

theorem Watched.post {p : Prog σ ε α} (h : Watched H I J E p) (hJ : ∀ a s, J a s → J' a s) :
    Watched H I J' E p := h.conseq (fun _ hs => hs) hJ fun _ _ hs => hs

theorem Watched.raises {p : Prog σ ε α} (h : Watched H I J E p) (hE : ∀ e s, E e s → E' e s) :
    Watched H I J E' p := h.conseq (fun _ hs => hs) (fun _ _ hs => hs) hE

/-- What holds at every end holds at the end. -/
theorem Watched.final {p : Prog σ ε α} (h : Watched H I (fun _ => H) (fun _ => H) p) {s : σ} (hs : I s) :
    H (p s).2 := by
  have hend : wp p (fun _ => H) s := by
    refine wp_mono (h s hs) fun r s' hr => ?_
    cases r with
    | ok a => exact hr
    | raise e => exact hr
    | halt => exact hr
  exact hend

/-- What is known of all states may be assumed. -/
theorem watched_assuming {c : Prop} {p : Prog σ ε α} (h : c → Watched H I J E p) :
    Watched H (fun s => c ∧ I s) J E p := fun s hs => h hs.1 s hs.2

/-- What holds from every member of a family of sets holds from their union. -/
theorem watched_exists {γ : Type} {F : γ → σ → Prop} {p : Prog σ ε α}
    (h : ∀ x, Watched H (F x) J E p) : Watched H (fun s => ∃ x, F x s) J E p := by
  intro s hs
  obtain ⟨x, hx⟩ := hs
  exact h x s hx

theorem watched_ret (a : α) : Watched H (J a) J E (ret a) := fun _ hs => hs

theorem watched_pure (a : α) : Watched H (J a) J E (pure a) := watched_ret a

theorem watched_raise (e : ε) : Watched H (E e) J E (raise e) := fun _ hs => hs

theorem watched_read (f : σ → α) (h : ∀ s, I s → J (f s) s) : Watched H I J E (read f) := h

theorem watched_modify {J : Unit → σ → Prop} {f : σ → σ} (h : ∀ s, I s → J () (f s)) :
    Watched H I J E (modify f) := h

theorem Watched.bind {p : Prog σ ε α} {f : α → Prog σ ε β} (hp : Watched H I J E p)
    (hf : ∀ a, Watched H (J a) K E (f a)) : Watched H I K E (p >>= f) := by
  intro s hs
  rw [wp_bind]
  refine wp_mono (hp s hs) fun r s' hr => ?_
  cases r with
  | ok a => exact hf a s' hr
  | raise e => exact hr
  | halt => exact hr

/-- What is read is known to the rest. -/
theorem watched_look {f : σ → α} {g : α → Prog σ ε β}
    (h : ∀ a, Watched H (fun s => I s ∧ f s = a) K E (g a)) : Watched H I K E (read f >>= g) :=
  fun s hs => h (f s) s ⟨hs, rfl⟩

/-- What is read is what it is known to be. -/
theorem watched_known {f : σ → α} {g : α → Prog σ ε β} {a : α} (ha : ∀ s, I s → f s = a)
    (h : Watched H I K E (g a)) : Watched H I K E (read f >>= g) := by
  intro s hs
  rw [wp_bind, wp_read, seqPost_ok, ha s hs]
  exact h s hs

theorem Watched.tryExcept {p : Prog σ ε α} {h : ε → Prog σ ε α} (hp : Watched H I J E p)
    (hh : ∀ e, Watched H (E e) J E' (h e)) : Watched H I J E' (tryExcept p h) := by
  intro s hs
  rw [wp_tryExcept]
  refine wp_mono (hp s hs) fun r s' hr => ?_
  cases r with
  | ok a => exact hr
  | raise e => exact hh e s' hr
  | halt => exact hr

theorem Watched.swallow {J : Unit → σ → Prop} {p : Prog σ ε Unit}
    (hp : Watched H I J (fun _ => J ()) p) : Watched H I J E (swallow p) :=
  hp.tryExcept fun _ => watched_ret ()

theorem Watched.reraising {p : Prog σ ε α} {h : ε → Prog σ ε Unit} (hp : Watched H I J E p)
    (hh : ∀ e, Watched H (E e) (fun _ => E' e) E' (h e)) : Watched H I J E' (reraising p h) :=
  hp.tryExcept fun e => (hh e).bind fun _ => watched_raise e

theorem Watched.tryFinally {p : Prog σ ε α} {q : Prog σ ε Unit} (hp : Watched H I J E p)
    (hreturn : ∀ a, Watched H (J a) (fun _ => J' a) E' q)
    (hraise : ∀ e, Watched H (E e) (fun _ => E' e) E' q) : Watched H I J' E' (tryFinally p q) := by
  intro s hs
  rw [wp_tryFinally]
  refine wp_mono (hp s hs) fun r s' hr => ?_
  cases r with
  | ok a =>
      rw [finallyPost_ok]
      refine wp_mono (hreturn a s' hr) fun r s'' hr => ?_
      cases r <;> exact hr
  | raise e =>
      rw [finallyPost_raise]
      refine wp_mono (hraise e s' hr) fun r s'' hr => ?_
      cases r <;> exact hr
  | halt => exact hr

theorem watched_ite {c : Prop} [Decidable c] {p q : Prog σ ε α} (hp : c → Watched H I J E p)
    (hq : ¬ c → Watched H I J E q) : Watched H I J E (if c then p else q) := by
  split
  · exact hp ‹_›
  · exact hq ‹_›

theorem watched_onlyIf {c : Prop} [Decidable c] {J : Unit → σ → Prop} {p : Prog σ ε Unit}
    (hp : c → Watched H I J E p) (hI : ¬ c → ∀ s, I s → J () s) :
    Watched H I J E (onlyIf c p) := watched_ite hp hI

theorem watched_forEach {f : β → Prog σ ε Unit} (bs : List β)
    (hf : ∀ b ∈ bs, Watched H I (fun _ => I) E (f b)) :
    Watched H I (fun _ => I) E (forEach bs f) := by
  induction bs with
  | nil => exact watched_ret (J := fun _ => I) ()
  | cons b bs ih =>
      have hrest : Watched H I (fun _ => I) E (forEach bs f) :=
        ih fun b' hb' => hf b' (List.mem_cons_of_mem b hb')
      exact (hf b (List.mem_cons_self ..)).bind fun _ => hrest

/-- The rule for a loop: what holds before each turn.  A loop whose rounds run out stops. -/
theorem watched_loop {L : β → σ → Prop} {body : β → Prog σ ε (β ⊕ α)}
    (hstop : ∀ b s, L b s → H s)
    (hbody : ∀ b, Watched H (L b) (fun r s => Sum.elim (fun b' => L b' s) (fun a => J a s) r) E
      (body b)) (n : Nat) (b : β) : Watched H (L b) J E (loop n body b) := by
  intro s hs
  refine wp_loop (I := L) hstop (fun b s hs => ?_) n b s hs
  refine wp_mono (hbody b s hs) fun r s' hr => ?_
  cases r with
  | ok x =>
      cases x with
      | inl b' => exact hr
      | inr a => exact hr
  | raise e => exact hr
  | halt => exact hr

end Watched

end Prog

end Effect
