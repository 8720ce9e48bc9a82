import Mathlib.Order.Defs.Unbundled

/-!
# Programs that raise and that can be stopped

A `Prog σ ε α` is a program over a state `σ`.  It ends in one of three ways.

* `ok a`: it returned `a`.
* `raise e`: it raised `e`, and a handler may catch it.
* `halt`: it stopped where it stood.  No handler and no clean-up runs.  A process that is
  killed ends so, and so does a loop whose bound was reached.

The state survives all three, since a mutation made before an exception is still there
when the handler runs.  The handlers are those of a language with `try`, `except` and
`finally`: an exception raised by a handler or by a `finally` block replaces the one
that was on its way.

Two notions carry the proofs.  `wp p Q s` says that `p`, run from `s`, ends with a result and
a state in `Q`.  Every operator has one equation for it, so `simp only` with these equations
walks through a program.  `Within R p` says that every run of `p` moves the state along
the preorder `R`.  It composes through every operator without looking at results, and is
what a frame condition or an invariant is stated with.  `Returns R p` says the same of the
runs that return, and `Guarded I E p` says of the runs from `I` that they stay in `I` and raise
only what is in `E`.
-/

namespace Effect

/-! ## Results and programs -/

/-- How a program ends. -/
inductive Result (ε α : Type) where
  /-- It returned a value. -/
  | ok : α → Result ε α
  /-- It raised an exception. -/
  | raise : ε → Result ε α
  /-- It stopped where it stood. -/
  | halt : Result ε α
deriving DecidableEq

/-- A program over the state `σ` that returns an `α` or raises an `ε`. -/
def Prog (σ ε α : Type) : Type := σ → Result ε α × σ

variable {σ ε α β : Type}

namespace Prog

/-- Return a value and leave the state alone. -/
def ret (a : α) : Prog σ ε α := fun s => (.ok a, s)

/-- Run `p`, then `f` on what it returned. -/
def andThen (p : Prog σ ε α) (f : α → Prog σ ε β) : Prog σ ε β := fun s =>
  match p s with
  | (.ok a, s') => f a s'
  | (.raise e, s') => (.raise e, s')
  | (.halt, s') => (.halt, s')

instance : Monad (Prog σ ε) where
  pure := ret
  bind := andThen

/-- Raise an exception. -/
def raise (e : ε) : Prog σ ε α := fun s => (.raise e, s)

/-- Stop. -/
def halt : Prog σ ε α := fun s => (.halt, s)

/-- Read a function of the state. -/
def read (f : σ → α) : Prog σ ε α := fun s => (.ok (f s), s)

/-- Change the state. -/
def modify (f : σ → σ) : Prog σ ε Unit := fun s => (.ok (), f s)

/-- `try p except e: h e`. -/
def tryExcept (p : Prog σ ε α) (h : ε → Prog σ ε α) : Prog σ ε α := fun s =>
  match p s with
  | (.raise e, s') => h e s'
  | r => r

/-- `try p finally q`.  An exception of `q` replaces that of `p`. -/
def tryFinally (p : Prog σ ε α) (q : Prog σ ε Unit) : Prog σ ε α := fun s =>
  match p s with
  | (.halt, s') => (.halt, s')
  | (r, s') =>
      match q s' with
      | (.ok _, s'') => (r, s'')
      | (.raise e, s'') => (.raise e, s'')
      | (.halt, s'') => (.halt, s'')

/-- `try p except e: h e; raise`.  The exception goes on once `h` is done. -/
def reraising (p : Prog σ ε α) (h : ε → Prog σ ε Unit) : Prog σ ε α :=
  tryExcept p fun e => andThen (h e) fun _ => raise e

/-- `try p except: pass`. -/
def swallow (p : Prog σ ε Unit) : Prog σ ε Unit :=
  tryExcept p fun _ => ret ()

/-- `swallow p` or `p`, as the flag says. -/
def swallowIf (quiet : Bool) (p : Prog σ ε Unit) : Prog σ ε Unit :=
  if quiet then swallow p else p

/-- Handle an exception with `h`, and let it go on only if the flag says so. -/
def reraisingIf (again : Bool) (p : Prog σ ε Unit) (h : ε → Prog σ ε Unit) : Prog σ ε Unit :=
  if again then reraising p h else tryExcept p h

/-- Run `p` when the condition holds. -/
def onlyIf (c : Prop) [Decidable c] (p : Prog σ ε Unit) : Prog σ ε Unit :=
  if c then p else ret ()

/-- Run `f` on each item of a list in order. -/
def forEach : List β → (β → Prog σ ε Unit) → Prog σ ε Unit
  | [], _ => ret ()
  | b :: bs, f => andThen (f b) fun _ => forEach bs f

/-- Repeat `body` until it returns a value, at most `n` times. -/
def loop : Nat → (β → Prog σ ε (β ⊕ α)) → β → Prog σ ε α
  | 0, _, _ => halt
  | n + 1, body, b => andThen (body b) fun r =>
      match r with
      | .inl b' => loop n body b'
      | .inr a => ret a

/-! ## Weakest preconditions -/

/-- From `s`, the program ends with a result and a state in `Q`. -/
def wp (p : Prog σ ε α) (Q : Result ε α → σ → Prop) (s : σ) : Prop := Q (p s).1 (p s).2

variable {p : Prog σ ε α} {s : σ}

theorem wp_mono {Q Q' : Result ε α → σ → Prop} (h : wp p Q s)
    (hQ : ∀ r s', Q r s' → Q' r s') : wp p Q' s := hQ _ _ h

theorem wp_of_run {Q : Result ε α → σ → Prop} {r : Result ε α} {s' : σ} (h : p s = (r, s'))
    (hQ : Q r s') : wp p Q s := by
  unfold wp
  rw [h]
  exact hQ

theorem wp_and {Q Q' : Result ε α → σ → Prop} (h : wp p Q s) (h' : wp p Q' s) :
    wp p (fun r s' => Q r s' ∧ Q' r s') s := ⟨h, h'⟩

@[simp] theorem wp_ret (a : α) (Q : Result ε α → σ → Prop) :
    wp (ret a) Q s = Q (.ok a) s := rfl

@[simp] theorem wp_pure (a : α) (Q : Result ε α → σ → Prop) :
    wp (pure a) Q s = Q (.ok a) s := rfl

@[simp] theorem wp_raise (e : ε) (Q : Result ε α → σ → Prop) :
    wp (raise e) Q s = Q (.raise e) s := rfl

@[simp] theorem wp_halt (Q : Result ε α → σ → Prop) : wp halt Q s = Q .halt s := rfl

@[simp] theorem wp_read (f : σ → α) (Q : Result ε α → σ → Prop) :
    wp (read f) Q s = Q (.ok (f s)) s := rfl

@[simp] theorem wp_modify (f : σ → σ) (Q : Result ε Unit → σ → Prop) :
    wp (modify f) Q s = Q (.ok ()) (f s) := rfl

/-- What has to hold when the first half of a sequence has ended. -/
def seqPost (f : α → Prog σ ε β) (Q : Result ε β → σ → Prop) : Result ε α → σ → Prop
  | .ok a, s => wp (f a) Q s
  | .raise e, s => Q (.raise e) s
  | .halt, s => Q .halt s

@[simp] theorem seqPost_ok (f : α → Prog σ ε β) (Q : Result ε β → σ → Prop) (a : α) :
    seqPost f Q (.ok a) s = wp (f a) Q s := rfl

@[simp] theorem seqPost_raise (f : α → Prog σ ε β) (Q : Result ε β → σ → Prop) (e : ε) :
    seqPost f Q (.raise e) s = Q (.raise e) s := rfl

@[simp] theorem seqPost_halt (f : α → Prog σ ε β) (Q : Result ε β → σ → Prop) :
    seqPost f Q .halt s = Q .halt s := rfl

@[simp] theorem wp_andThen (f : α → Prog σ ε β) (Q : Result ε β → σ → Prop) :
    wp (andThen p f) Q s = wp p (seqPost f Q) s := by
  unfold wp andThen seqPost
  split <;> rename_i h <;> simp [h, wp]

@[simp] theorem wp_bind (f : α → Prog σ ε β) (Q : Result ε β → σ → Prop) :
    wp (p >>= f) Q s = wp p (seqPost f Q) s := wp_andThen f Q

/-- What has to hold when the body of a `try` has ended. -/
def exceptPost (h : ε → Prog σ ε α) (Q : Result ε α → σ → Prop) : Result ε α → σ → Prop
  | .raise e, s => wp (h e) Q s
  | .ok a, s => Q (.ok a) s
  | .halt, s => Q .halt s

@[simp] theorem exceptPost_ok (h : ε → Prog σ ε α) (Q : Result ε α → σ → Prop) (a : α) :
    exceptPost h Q (.ok a) s = Q (.ok a) s := rfl

@[simp] theorem exceptPost_raise (h : ε → Prog σ ε α) (Q : Result ε α → σ → Prop) (e : ε) :
    exceptPost h Q (.raise e) s = wp (h e) Q s := rfl

@[simp] theorem exceptPost_halt (h : ε → Prog σ ε α) (Q : Result ε α → σ → Prop) :
    exceptPost h Q .halt s = Q .halt s := rfl

@[simp] theorem wp_tryExcept (h : ε → Prog σ ε α) (Q : Result ε α → σ → Prop) :
    wp (tryExcept p h) Q s = wp p (exceptPost h Q) s := by
  unfold wp tryExcept exceptPost
  rcases hp : p s with ⟨r, s'⟩
  cases r <;> simp [wp]

/-- What has to hold when the body of a `try … finally` has ended. -/
def finallyPost (q : Prog σ ε Unit) (Q : Result ε α → σ → Prop) : Result ε α → σ → Prop
  | .halt, s => Q .halt s
  | .ok a, s => wp q (seqPost (fun _ => ret a) Q) s
  | .raise e, s => wp q (seqPost (fun _ => raise e) Q) s

@[simp] theorem finallyPost_ok (q : Prog σ ε Unit) (Q : Result ε α → σ → Prop) (a : α) :
    finallyPost q Q (.ok a) s = wp q (seqPost (fun _ => ret a) Q) s := rfl

@[simp] theorem finallyPost_raise (q : Prog σ ε Unit) (Q : Result ε α → σ → Prop) (e : ε) :
    finallyPost q Q (.raise e) s = wp q (seqPost (fun _ => raise e) Q) s := rfl

@[simp] theorem finallyPost_halt (q : Prog σ ε Unit) (Q : Result ε α → σ → Prop) :
    finallyPost q Q .halt s = Q .halt s := rfl

@[simp] theorem wp_tryFinally (q : Prog σ ε Unit) (Q : Result ε α → σ → Prop) :
    wp (tryFinally p q) Q s = wp p (finallyPost q Q) s := by
  unfold wp tryFinally finallyPost
  rcases hp : p s with ⟨r, s'⟩
  cases r with
  | halt => rfl
  | ok a =>
      rcases hq : q s' with ⟨rq, s''⟩
      cases rq <;> simp [wp, seqPost, ret, hq]
  | raise e =>
      rcases hq : q s' with ⟨rq, s''⟩
      cases rq <;> simp [wp, seqPost, raise, hq]

@[simp] theorem wp_reraising (h : ε → Prog σ ε Unit) (Q : Result ε α → σ → Prop) :
    wp (reraising p h) Q s
      = wp p (exceptPost (fun e => andThen (h e) fun _ => raise e) Q) s :=
  wp_tryExcept _ _

@[simp] theorem wp_swallow {p : Prog σ ε Unit} (Q : Result ε Unit → σ → Prop) :
    wp (swallow p) Q s = wp p (exceptPost (fun _ => ret ()) Q) s :=
  wp_tryExcept _ _

@[simp] theorem wp_ite {c : Prop} [Decidable c] {p q : Prog σ ε α}
    (Q : Result ε α → σ → Prop) :
    wp (if c then p else q) Q s = if c then wp p Q s else wp q Q s := by
  split <;> rfl

theorem wp_onlyIf {c : Prop} [Decidable c] {p : Prog σ ε Unit} {Q : Result ε Unit → σ → Prop}
    (h : c → wp p Q s) (h' : ¬ c → Q (.ok ()) s) : wp (onlyIf c p) Q s := by
  unfold onlyIf
  split
  · exact h ‹_›
  · exact h' ‹_›

/-- A postcondition of the body that covers every exception by `()` is one of `swallow`. -/
theorem wp_swallow_of {p : Prog σ ε Unit} {Q : Result ε Unit → σ → Prop}
    (h : wp p (fun r s' => Q (match r with | .raise _ => .ok () | r => r) s') s) :
    wp (swallow p) Q s := by
  rw [wp_swallow]
  refine wp_mono h ?_
  intro r s' hr
  cases r <;> exact hr

/-- What follows a `swallow` runs from wherever the body ended, however it ended. -/
theorem wp_swallow_then {p : Prog σ ε Unit} {q : Prog σ ε α} {Q : Result ε α → σ → Prop}
    (h : wp p (fun r s' => r ≠ .halt ∧ wp q Q s') s) : wp (swallow p >>= fun _ => q) Q s := by
  rw [wp_bind]
  refine wp_swallow_of (wp_mono h ?_)
  rintro r s' ⟨hhalt, hq⟩
  cases r with
  | ok _ => exact hq
  | raise _ => exact hq
  | halt => exact absurd rfl hhalt

/-- The invariant rule for `forEach`: what holds when an item is done holds when the next one
begins, and what an item may end with, the loop may end with. -/
theorem wp_forEach {P : Result ε Unit → σ → Prop} {f : β → Prog σ ε Unit} :
    ∀ {bs : List β} {s : σ}, P (.ok ()) s →
      (∀ b ∈ bs, ∀ s, P (.ok ()) s → wp (f b) P s) → wp (forEach bs f) P s
  | [], s, hs, _ => hs
  | b :: bs, s, hs, hf => by
      rw [forEach, wp_andThen]
      refine wp_mono (hf b (List.mem_cons_self ..) s hs) ?_
      intro r s' hr
      cases r with
      | ok a => exact wp_forEach hr fun b' hb' => hf b' (List.mem_cons_of_mem _ hb')
      | raise e => exact hr
      | halt => exact hr

/-- The invariant rule for `loop`: a bound that runs out is a `halt`. -/
theorem wp_loop {I : β → σ → Prop} {Q : Result ε α → σ → Prop}
    {body : β → Prog σ ε (β ⊕ α)}
    (hhalt : ∀ b s, I b s → Q .halt s)
    (hbody : ∀ b s, I b s → wp (body b) (fun r s' =>
      match r with
      | .ok (.inl b') => I b' s'
      | .ok (.inr a) => Q (.ok a) s'
      | .raise e => Q (.raise e) s'
      | .halt => Q .halt s') s) :
    ∀ (n : Nat) (b : β) (s : σ), I b s → wp (loop n body b) Q s
  | 0, b, s, hI => hhalt b s hI
  | n + 1, b, s, hI => by
      rw [loop, wp_andThen]
      refine wp_mono (hbody b s hI) ?_
      intro r s' hr
      cases r with
      | ok x =>
          cases x with
          | inl b' => exact wp_loop hhalt hbody n b' s' hr
          | inr a => exact hr
      | raise e => exact hr
      | halt => exact hr

/-! ## Moving along a preorder -/

/-- Every run of `p` moves the state along `R`, whatever its result. -/
def Within (R : σ → σ → Prop) (p : Prog σ ε α) : Prop := ∀ s, R s (p s).2

theorem Within.wp {R : σ → σ → Prop} {p : Prog σ ε α} (h : Within R p) (s : σ) :
    p.wp (fun _ s' => R s s') s := h s

section Within

variable {R : σ → σ → Prop} [IsPreorder σ R]

theorem within_of_wp {R : σ → σ → Prop} {p : Prog σ ε α}
    (h : ∀ s, p.wp (fun _ s' => R s s') s) : Within R p := h

theorem within_ret (a : α) : Within R (ret a : Prog σ ε α) := fun s => refl_of R s

theorem within_pure (a : α) : Within R (pure a : Prog σ ε α) := within_ret a

theorem within_raise (e : ε) : Within R (raise e : Prog σ ε α) := fun s => refl_of R s

theorem within_halt : Within R (halt : Prog σ ε α) := fun s => refl_of R s

theorem within_read (f : σ → α) : Within R (read f : Prog σ ε α) := fun s => refl_of R s

theorem within_modify {R : σ → σ → Prop} {f : σ → σ} (h : ∀ s, R s (f s)) :
    Within R (modify f : Prog σ ε Unit) := h

theorem Within.andThen {p : Prog σ ε α} {f : α → Prog σ ε β} (hp : Within R p)
    (hf : ∀ a, Within R (f a)) : Within R (andThen p f) := by
  intro s
  have h := hp s
  unfold Prog.andThen
  rcases hps : p s with ⟨r, s'⟩
  rw [hps] at h
  cases r with
  | ok a => exact trans_of R h (hf a s')
  | raise e => exact h
  | halt => exact h

theorem Within.bind {p : Prog σ ε α} {f : α → Prog σ ε β} (hp : Within R p)
    (hf : ∀ a, Within R (f a)) : Within R (p >>= f) := hp.andThen hf

theorem Within.tryExcept {p : Prog σ ε α} {h : ε → Prog σ ε α} (hp : Within R p)
    (hh : ∀ e, Within R (h e)) : Within R (tryExcept p h) := by
  intro s
  have hs := hp s
  unfold Prog.tryExcept
  rcases hps : p s with ⟨r, s'⟩
  rw [hps] at hs
  cases r with
  | ok a => exact hs
  | raise e => exact trans_of R hs (hh e s')
  | halt => exact hs

theorem Within.reraising {p : Prog σ ε α} {h : ε → Prog σ ε Unit} (hp : Within R p)
    (hh : ∀ e, Within R (h e)) : Within R (reraising p h) :=
  hp.tryExcept fun e => (hh e).andThen fun _ => within_raise e

theorem Within.swallow {p : Prog σ ε Unit} (hp : Within R p) : Within R (swallow p) :=
  hp.tryExcept fun _ => within_ret ()

theorem Within.swallowIf {p : Prog σ ε Unit} (hp : Within R p) (quiet : Bool) :
    Within R (swallowIf quiet p) := by
  unfold Prog.swallowIf
  split
  · exact hp.swallow
  · exact hp

theorem Within.reraisingIf {p : Prog σ ε Unit} {h : ε → Prog σ ε Unit} (hp : Within R p)
    (hh : ∀ e, Within R (h e)) (again : Bool) : Within R (reraisingIf again p h) := by
  unfold Prog.reraisingIf
  split
  · exact hp.reraising hh
  · exact hp.tryExcept hh

theorem Within.tryFinally {p : Prog σ ε α} {q : Prog σ ε Unit} (hp : Within R p)
    (hq : Within R q) : Within R (tryFinally p q) := by
  intro s
  have hs := hp s
  unfold Prog.tryFinally
  rcases hps : p s with ⟨r, s'⟩
  rw [hps] at hs
  have hqs := hq s'
  rcases hqs' : q s' with ⟨rq, s''⟩
  rw [hqs'] at hqs
  cases r with
  | halt => exact hs
  | ok a => cases rq <;> simp only [hqs'] <;> exact trans_of R hs hqs
  | raise e => cases rq <;> simp only [hqs'] <;> exact trans_of R hs hqs

theorem within_forEach {f : β → Prog σ ε Unit} :
    ∀ {bs : List β}, (∀ b ∈ bs, Within R (f b)) → Within R (forEach bs f)
  | [], _ => within_ret ()
  | b :: _, hf =>
      (hf b (List.mem_cons_self ..)).andThen fun _ =>
        within_forEach fun b' hb' => hf b' (List.mem_cons_of_mem _ hb')

theorem within_loop {body : β → Prog σ ε (β ⊕ α)} (hb : ∀ b, Within R (body b)) :
    ∀ (n : Nat) (b : β), Within R (loop n body b)
  | 0, _ => within_halt
  | n + 1, b => (hb b).andThen fun r => by
      cases r with
      | inl b' => exact within_loop hb n b'
      | inr a => exact within_ret a

theorem Within.onlyIf {c : Prop} [Decidable c] {p : Prog σ ε Unit} (hp : Within R p) :
    Within R (onlyIf c p) := by
  unfold Prog.onlyIf
  split
  · exact hp
  · exact within_ret ()

end Within

theorem within_ite {R : σ → σ → Prop} {c : Prop} [Decidable c] {p q : Prog σ ε α}
    (hp : Within R p) (hq : Within R q) : Within R (if c then p else q) := by
  split
  · exact hp
  · exact hq

/-- Some exceptions are answered for, and the others are raised again. -/
theorem Within.tolerate {R : σ → σ → Prop} [IsPreorder σ R] {p : Prog σ ε α} (hp : Within R p)
    {c : ε → Prop} [DecidablePred c] {a : ε → α} :
    Within R (Prog.tryExcept p fun e => if c e then pure (a e) else raise e) :=
  hp.tryExcept fun e => within_ite (within_pure (a e)) (within_raise e)

/-! ## Moving along a preorder when it returns -/

/-- Every run of `p` that returns moves the state along `R`. -/
def Returns (R : σ → σ → Prop) (p : Prog σ ε α) : Prop := ∀ s a s', p s = (.ok a, s') → R s s'

/-- No run of `p` returns. -/
def Raises (p : Prog σ ε α) : Prop := ∀ s a s', p s ≠ (.ok a, s')

theorem raises_raise (e : ε) : Raises (raise e : Prog σ ε α) := by
  intro s a s' h
  cases h

theorem andThen_ok {p : Prog σ ε α} {f : α → Prog σ ε β} {s s' : σ} {b : β}
    (h : andThen p f s = (.ok b, s')) : ∃ a t, p s = (.ok a, t) ∧ f a t = (.ok b, s') := by
  unfold andThen at h
  rcases hp : p s with ⟨r, t⟩
  rw [hp] at h
  cases r with
  | ok a => exact ⟨a, t, rfl, h⟩
  | raise e => cases h
  | halt => cases h

theorem Raises.bind {p : Prog σ ε α} {f : α → Prog σ ε β} (hf : ∀ a, Raises (f a)) :
    Raises (p >>= f) := by
  intro s b s' h
  obtain ⟨a, t, -, hft⟩ := andThen_ok h
  exact hf a t b s' hft

theorem Raises.returns {R : σ → σ → Prop} {p : Prog σ ε α} (h : Raises p) : Returns R p :=
  fun s a s' hp => absurd hp (h s a s')

theorem Within.returns {R : σ → σ → Prop} {p : Prog σ ε α} (h : Within R p) : Returns R p := by
  intro s a s' hp
  have hs := h s
  rw [hp] at hs
  exact hs

theorem Returns.wp {R : σ → σ → Prop} {p : Prog σ ε α} (h : Returns R p) (s : σ) :
    p.wp (fun r s' => ∀ a, r = .ok a → R s s') s :=
  fun a ha => h s a _ (Prod.ext ha rfl)

section Returns

variable {R : σ → σ → Prop} [IsPreorder σ R]

theorem Returns.bind {p : Prog σ ε α} {f : α → Prog σ ε β} (hp : Returns R p)
    (hf : ∀ a, Returns R (f a)) : Returns R (p >>= f) := by
  intro s b s' h
  obtain ⟨a, t, hpt, hft⟩ := andThen_ok h
  exact trans_of R (hp s a t hpt) (hf a t b s' hft)

omit [IsPreorder σ R] in
/-- A handler that lets the exception go on has no say in what a return moved. -/
theorem Returns.reraising {p : Prog σ ε α} {h : ε → Prog σ ε Unit} (hp : Returns R p) :
    Returns R (reraising p h) := by
  intro s a s' hr
  unfold Prog.reraising Prog.tryExcept at hr
  rcases hps : p s with ⟨r, t⟩
  rw [hps] at hr
  cases r with
  | ok b =>
      cases hr
      exact hp s a _ hps
  | halt => cases hr
  | raise e =>
      obtain ⟨_, _, -, hraise⟩ := andThen_ok hr
      cases hraise

theorem Returns.tryFinally {p : Prog σ ε α} {q : Prog σ ε Unit} (hp : Returns R p)
    (hq : Returns R q) : Returns R (tryFinally p q) := by
  intro s a s' hr
  unfold Prog.tryFinally at hr
  rcases hps : p s with ⟨r, t⟩
  rw [hps] at hr
  cases r with
  | halt => cases hr
  | ok b =>
      rcases hqt : q t with ⟨rq, t'⟩
      simp only [hqt] at hr
      cases rq <;> cases hr
      exact trans_of R (hp s a t hps) (hq t _ _ hqt)
  | raise e =>
      rcases hqt : q t with ⟨rq, t'⟩
      simp only [hqt] at hr
      cases rq <;> cases hr

theorem Returns.onlyIf {c : Prop} [Decidable c] {p : Prog σ ε Unit} (hp : Returns R p) :
    Returns R (onlyIf c p) := by
  unfold Prog.onlyIf
  split
  · exact hp
  · exact (within_ret ()).returns

end Returns

theorem returns_ite {R : σ → σ → Prop} {c : Prop} [Decidable c] {p q : Prog σ ε α}
    (hp : Returns R p) (hq : Returns R q) : Returns R (if c then p else q) := by
  split
  · exact hp
  · exact hq

/-- An invariant, as the preorder of the steps that keep it. -/
def Kept (I : σ → Prop) (s s' : σ) : Prop := I s → I s'

instance (I : σ → Prop) : IsPreorder σ (Kept I) where
  refl _ h := h
  trans _ _ _ h h' hs := h' (h hs)

/-- A step that keeps an invariant, and then the rest from any state in it. -/
theorem wp_bind_kept {I : σ → Prop} {p : Prog σ ε α} {f : α → Prog σ ε β}
    {Q : Result ε β → σ → Prop} {s : σ} (hp : Within (Kept I) p) (hs : I s)
    (hok : ∀ a s', I s' → wp (f a) Q s') (hraise : ∀ e s', I s' → Q (.raise e) s')
    (hhalt : ∀ s', I s' → Q .halt s') : wp (p >>= f) Q s := by
  rw [wp_bind]
  refine wp_mono (hp.wp s) ?_
  intro r s' hr
  cases r with
  | ok a => exact hok a s' (hr hs)
  | raise e => exact hraise e s' (hr hs)
  | halt => exact hhalt s' (hr hs)

/-- The same after a step whose exceptions are swallowed. -/
theorem wp_bind_swallow {I : σ → Prop} {p : Prog σ ε Unit} {f : Unit → Prog σ ε β}
    {Q : Result ε β → σ → Prop} {s : σ} (hp : Within (Kept I) p) (hs : I s)
    (hok : ∀ s', I s' → wp (f ()) Q s') (hhalt : ∀ s', I s' → Q .halt s') :
    wp (swallow p >>= f) Q s := by
  rw [wp_bind, wp_swallow]
  refine wp_mono (hp.wp s) ?_
  intro r s' hr
  cases r with
  | ok a => exact hok s' (hr hs)
  | raise e => exact hok s' (hr hs)
  | halt => exact hhalt s' (hr hs)

/-- A program that ends in an invariant however it ends, and then one that keeps it. -/
theorem wp_then_kept {I : σ → Prop} {p : Prog σ ε α} {f : α → Prog σ ε β} {s : σ}
    (hp : wp p (fun _ s' => I s') s) (hf : ∀ a, Within (Kept I) (f a)) :
    wp (p >>= f) (fun _ s' => I s') s := by
  rw [wp_bind]
  refine wp_mono hp fun r s' hI => ?_
  cases r with
  | ok a => exact hf a s' hI
  | raise e => exact hI
  | halt => exact hI

theorem wp_tryFinally_kept {I : σ → Prop} {p : Prog σ ε α} {q : Prog σ ε Unit} {s : σ}
    (hp : wp p (fun _ s' => I s') s) (hq : Within (Kept I) q) :
    wp (tryFinally p q) (fun _ s' => I s') s := by
  rw [wp_tryFinally]
  refine wp_mono hp fun r s' hI => ?_
  have hend (f : Unit → Prog σ ε α) (hf : ∀ a, Within (Kept I) (f a)) :
      wp q (seqPost f fun _ s' => I s') s' := by
    rw [← wp_bind]
    exact wp_then_kept (hq s' hI) hf
  cases r with
  | ok a => exact hend _ fun _ => within_ret a
  | raise e => exact hend _ fun _ => within_raise e
  | halt => exact hI

theorem wp_swallow_kept {I : σ → Prop} {p : Prog σ ε Unit} {s : σ}
    (hp : wp p (fun _ s' => I s') s) : wp (swallow p) (fun _ s' => I s') s := wp_swallow_of hp

/-- What each turn of a loop establishes, if it returns, and the other turns keep, a loop that returns has
established for all. -/
theorem wp_forEach_each {P : β → σ → Prop} {f : β → Prog σ ε Unit} :
    ∀ {bs : List β}, (∀ b ∈ bs, ∀ s, wp (f b) (fun r s' => r = .ok () → P b s') s) →
      (∀ b, ∀ b' ∈ bs, Within (Kept (P b)) (f b')) →
      ∀ s, wp (forEach bs f) (fun r s' => r = .ok () → ∀ b ∈ bs, P b s') s
  | [], _, _, _ => fun _ _ hb => absurd hb List.not_mem_nil
  | b :: bs, hf, hkeep, s => by
      show wp (andThen (f b) fun _ => forEach bs f) _ s
      rw [wp_andThen]
      have hrest := fun s' => wp_forEach_each (fun b' hb' => hf b' (List.mem_cons_of_mem _ hb'))
        (fun a b' hb' => hkeep a b' (List.mem_cons_of_mem _ hb')) s'
      have hkept : Within (Kept (P b)) (forEach bs f) :=
        within_forEach fun b' hb' => hkeep b b' (List.mem_cons_of_mem _ hb')
      refine wp_mono (hf b (List.mem_cons_self ..) s) fun r s' hr => ?_
      cases r with
      | ok u => exact fun hok => List.forall_mem_cons.mpr ⟨hkept s' (hr rfl), hrest s' hok⟩
      | raise e => exact fun hok => by cases hok
      | halt => exact fun hok => by cases hok

/-! ## One after the other -/

/-- What follows a run may be taken as following its last part. -/
theorem bind_bind {γ : Type} (p : Prog σ ε α) (f : α → Prog σ ε β) (g : β → Prog σ ε γ) :
    (p >>= f) >>= g = p >>= fun a => f a >>= g := by
  funext s
  change andThen (andThen p f) g s = andThen p (fun a => andThen (f a) g) s
  unfold andThen
  rcases p s with ⟨r, s'⟩
  cases r with
  | ok a => rfl
  | raise e => rfl
  | halt => rfl

theorem forEach_append (bs bs' : List β) (f : β → Prog σ ε Unit) :
    forEach (bs ++ bs') f = forEach bs f >>= fun _ => forEach bs' f := by
  induction bs with
  | nil => rfl
  | cons b bs ih =>
      calc
        forEach (b :: bs ++ bs') f = f b >>= fun _ => forEach bs f >>= fun _ => forEach bs' f :=
          congrArg (fun p => f b >>= fun _ => p) ih
        _ = forEach (b :: bs) f >>= fun _ => forEach bs' f := (bind_bind _ _ _).symm

theorem Raises.then {p : Prog σ ε α} {f : α → Prog σ ε β} (hp : Raises p) : Raises (p >>= f) := by
  intro s b s' h
  obtain ⟨a, t, hpt, -⟩ := andThen_ok h
  exact hp s a t hpt

/-- A loop with a turn that never returns never returns. -/
theorem raises_forEach {f : β → Prog σ ε Unit} {b : β} (hb : Raises (f b)) :
    ∀ {bs : List β}, b ∈ bs → Raises (forEach bs f)
  | [], hmem => absurd hmem List.not_mem_nil
  | b' :: bs, hmem => by
      rcases List.mem_cons.mp hmem with rfl | hmem
      · exact hb.then
      · exact Raises.bind fun _ => raises_forEach hb hmem

/-- What follows a program that never returns has no say in what it moves. -/
theorem Raises.within {R : σ → σ → Prop} {p : Prog σ ε α} {f : α → Prog σ ε β} (h : Raises p)
    (hp : Within R p) : Within R (p >>= f) := by
  intro s
  have hs := hp s
  show R s (andThen p f s).2
  unfold andThen
  rcases hps : p s with ⟨r, s'⟩
  rw [hps] at hs
  cases r with
  | ok a => exact absurd hps (h s a s')
  | raise e => exact hs
  | halt => exact hs

/-! ## What is raised -/

/-- From a state in `I`, the program ends in `I`, and what it raises is in `E`. -/
def Guarded (I : σ → Prop) (E : ε → Prop) (p : Prog σ ε α) : Prop :=
  ∀ s, I s → wp p (fun r s' => I s' ∧ ∀ e, r = .raise e → E e) s

section Guarded

variable {I : σ → Prop} {E : ε → Prop}

theorem guarded_ret (a : α) : Guarded I E (ret a : Prog σ ε α) := fun _ h => ⟨h, nofun⟩

theorem guarded_pure (a : α) : Guarded I E (pure a : Prog σ ε α) := guarded_ret a

theorem guarded_halt : Guarded I E (halt : Prog σ ε α) := fun _ h => ⟨h, nofun⟩

theorem guarded_read (f : σ → α) : Guarded I E (read f : Prog σ ε α) := fun _ h => ⟨h, nofun⟩

theorem guarded_modify {f : σ → σ} (h : ∀ s, I s → I (f s)) :
    Guarded I E (modify f : Prog σ ε Unit) := fun s hs => ⟨h s hs, nofun⟩

theorem guarded_raise {e : ε} (h : E e) : Guarded I E (raise e : Prog σ ε α) := by
  intro s hs
  refine ⟨hs, ?_⟩
  rintro e' he
  cases he
  exact h

theorem Guarded.andThen {p : Prog σ ε α} {f : α → Prog σ ε β} (hp : Guarded I E p)
    (hf : ∀ a, Guarded I E (f a)) : Guarded I E (andThen p f) := by
  intro s hs
  rw [wp_andThen]
  refine wp_mono (hp s hs) fun r s' hr => ?_
  cases r with
  | ok a => exact hf a s' hr.1
  | raise e =>
      refine ⟨hr.1, ?_⟩
      rintro e' he
      cases he
      exact hr.2 e rfl
  | halt => exact ⟨hr.1, nofun⟩

theorem Guarded.bind {p : Prog σ ε α} {f : α → Prog σ ε β} (hp : Guarded I E p)
    (hf : ∀ a, Guarded I E (f a)) : Guarded I E (p >>= f) := hp.andThen hf

/-- A handler sees only what the body may raise. -/
theorem Guarded.tryExcept {p : Prog σ ε α} {h : ε → Prog σ ε α} (hp : Guarded I E p)
    (hh : ∀ e, E e → Guarded I E (h e)) : Guarded I E (tryExcept p h) := by
  intro s hs
  rw [wp_tryExcept]
  refine wp_mono (hp s hs) fun r s' hr => ?_
  cases r with
  | ok a => exact ⟨hr.1, nofun⟩
  | raise e => exact hh e (hr.2 e rfl) s' hr.1
  | halt => exact ⟨hr.1, nofun⟩

theorem Guarded.swallow {p : Prog σ ε Unit} (hp : Guarded I E p) : Guarded I E (swallow p) :=
  hp.tryExcept fun _ _ => guarded_ret ()

theorem Guarded.onlyIf {c : Prop} [Decidable c] {p : Prog σ ε Unit} (hp : Guarded I E p) :
    Guarded I E (onlyIf c p) := by
  unfold Prog.onlyIf
  split
  · exact hp
  · exact guarded_ret ()

theorem guarded_ite {c : Prop} [Decidable c] {p q : Prog σ ε α} (hp : Guarded I E p)
    (hq : Guarded I E q) : Guarded I E (if c then p else q) := by
  split
  · exact hp
  · exact hq

theorem guarded_forEach {f : β → Prog σ ε Unit} :
    ∀ {bs : List β}, (∀ b ∈ bs, Guarded I E (f b)) → Guarded I E (forEach bs f)
  | [], _ => guarded_ret ()
  | b :: _, hf =>
      (hf b (List.mem_cons_self ..)).andThen fun _ =>
        guarded_forEach fun b' hb' => hf b' (List.mem_cons_of_mem _ hb')

theorem guarded_loop {body : β → Prog σ ε (β ⊕ α)} (hb : ∀ b, Guarded I E (body b)) :
    ∀ (n : Nat) (b : β), Guarded I E (loop n body b)
  | 0, _ => guarded_halt
  | n + 1, b => (hb b).andThen fun r => by
      cases r with
      | inl b' => exact guarded_loop hb n b'
      | inr a => exact guarded_ret a

end Guarded

/-! ## Programs that are not stopped -/

/-- No run of `p` stops where it stands. -/
def Ends (p : Prog σ ε α) : Prop := ∀ s, (p s).1 ≠ .halt

theorem Ends.wp {p : Prog σ ε α} (h : Ends p) (s : σ) : p.wp (fun r _ => r ≠ .halt) s := h s

theorem ends_ret (a : α) : Ends (ret a : Prog σ ε α) := fun _ h => by cases h

theorem ends_pure (a : α) : Ends (pure a : Prog σ ε α) := ends_ret a

theorem ends_raise (e : ε) : Ends (raise e : Prog σ ε α) := fun _ h => by cases h

theorem ends_read (f : σ → α) : Ends (read f : Prog σ ε α) := fun _ h => by cases h

theorem Ends.bind {p : Prog σ ε α} {f : α → Prog σ ε β} (hp : Ends p) (hf : ∀ a, Ends (f a)) :
    Ends (p >>= f) := by
  intro s
  have hwp : Prog.wp (p >>= f) (fun r _ => r ≠ .halt) s := by
    rw [wp_bind]
    refine wp_mono (hp.wp s) fun r s' hr => ?_
    cases r with
    | ok a => exact hf a s'
    | raise e => simp
    | halt => exact absurd rfl hr
  exact hwp

theorem Ends.tryExcept {p : Prog σ ε α} {h : ε → Prog σ ε α} (hp : Ends p)
    (hh : ∀ e, Ends (h e)) : Ends (tryExcept p h) := by
  intro s
  have hwp : Prog.wp (Prog.tryExcept p h) (fun r _ => r ≠ .halt) s := by
    rw [wp_tryExcept]
    refine wp_mono (hp.wp s) fun r s' hr => ?_
    cases r with
    | ok a => simp
    | raise e => exact hh e s'
    | halt => exact absurd rfl hr
  exact hwp

theorem Ends.onlyIf {c : Prop} [Decidable c] {p : Prog σ ε Unit} (hp : Ends p) :
    Ends (onlyIf c p) := by
  unfold Prog.onlyIf
  split
  · exact hp
  · exact ends_ret ()

theorem ends_ite {c : Prop} [Decidable c] {p q : Prog σ ε α} (hp : Ends p) (hq : Ends q) :
    Ends (if c then p else q) := by
  split
  · exact hp
  · exact hq

end Prog

end Effect
