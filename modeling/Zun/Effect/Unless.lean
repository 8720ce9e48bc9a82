import Zun.Effect.Prog

/-!
# Programs that keep a promise unless something happens

A triple with an excuse.  `Unless B I J E p` says that a run of `p` from `I` returns in `J` or raises
in `E`, unless `B` holds by the time it ends, and that `B` once it holds is there to stay.  A run that
stops promises nothing.

The rules are those of an ordinary triple with one postcondition for what is returned and one for
what is raised.  The excuse goes along by itself.
-/

namespace Effect

variable {σ ε α β : Type}

namespace Prog

/-- A run has returned in `J` or raised in `E`, or has stopped. -/
def Ended (J : α → σ → Prop) (E : ε → σ → Prop) : Result ε α → σ → Prop
  | .ok a, s => J a s
  | .raise e, s => E e s
  | .halt, _ => True

/-- From `I`, a run of `p` returns in `J` or raises in `E`, unless `B` holds in the end. -/
structure Unless (B I : σ → Prop) (J : α → σ → Prop) (E : ε → σ → Prop) (p : Prog σ ε α) : Prop where
  kept : Within (Kept B) p
  ends : ∀ s, I s → wp p (fun r s' => B s' ∨ Ended J E r s') s

section Unless

variable {B I I' : σ → Prop} {J : α → σ → Prop} {K : β → σ → Prop} {E : ε → σ → Prop}

theorem Unless.conseq {J' : α → σ → Prop} {E' : ε → σ → Prop} {p : Prog σ ε α}
    (h : Unless B I J E p) (hI : ∀ s, I' s → I s) (hJ : ∀ a s, J a s → J' a s)
    (hE : ∀ e s, E e s → E' e s) : Unless B I' J' E' p where
  kept := h.kept
  ends s hs := by
    refine wp_mono (h.ends s (hI s hs)) fun r s' hr => ?_
    rcases hr with hB | hr
    · exact .inl hB
    cases r with
    | ok a => exact .inr (hJ a s' hr)
    | raise e => exact .inr (hE e s' hr)
    | halt => exact .inr trivial

/-- The promise goes with what is known of every run. -/
theorem Unless.knowing {Q : Result ε α → σ → Prop} {p : Prog σ ε α} (h : Unless B I J E p)
    (hQ : ∀ s, I s → wp p Q s) : Unless B I (fun a s => J a s ∧ Q (.ok a) s) E p where
  kept := h.kept
  ends s hs := by
    refine wp_mono (wp_and (h.ends s hs) (hQ s hs)) fun r s' hr => ?_
    obtain ⟨hend, hQ⟩ := hr
    cases r with
    | ok a => exact hend.imp id fun hJ => ⟨hJ, hQ⟩
    | raise e => exact hend
    | halt => exact hend

/-- A part that is never come to. -/
theorem unless_never {p : Prog σ ε α} (hkept : Within (Kept B) p) :
    Unless B (fun _ => False) J E p := ⟨hkept, fun _ hs => hs.elim⟩

/-- What is known of all states may be assumed. -/
theorem unless_assuming {c : Prop} {p : Prog σ ε α} (hkept : Within (Kept B) p)
    (h : c → Unless B I J E p) : Unless B (fun s => c ∧ I s) J E p :=
  ⟨hkept, fun s hs => (h hs.1).ends s hs.2⟩

/-- What is promised from each of two sets is promised from both. -/
theorem Unless.or {p : Prog σ ε α} (h : Unless B I J E p) (h' : Unless B I' J E p) :
    Unless B (fun s => I s ∨ I' s) J E p where
  kept := h.kept
  ends s hs := hs.elim (h.ends s) (h'.ends s)

/-- What is promised from each of several states is promised from all of them. -/
theorem unless_of_forall {p : Prog σ ε α} (hkept : Within (Kept B) p)
    (h : ∀ s, I s → Unless B (· = s) J E p) : Unless B I J E p :=
  ⟨hkept, fun s hs => (h s hs).ends s rfl⟩

theorem Unless.pre {p : Prog σ ε α} (h : Unless B I J E p) (hI : ∀ s, I' s → I s) :
    Unless B I' J E p := h.conseq hI (fun _ _ hs => hs) fun _ _ hs => hs

theorem Unless.post {J' : α → σ → Prop} {p : Prog σ ε α} (h : Unless B I J E p)
    (hJ : ∀ a s, J a s → J' a s) : Unless B I J' E p :=
  h.conseq (fun _ hs => hs) hJ fun _ _ hs => hs

theorem unless_ret (a : α) : Unless B (J a) J E (ret a) :=
  ⟨within_ret a, fun _ hs => .inr hs⟩

theorem unless_pure (a : α) : Unless B (J a) J E (pure a) := unless_ret a

theorem unless_raise (e : ε) : Unless B (E e) J E (raise e) :=
  ⟨within_raise e, fun _ hs => .inr hs⟩

theorem unless_read (f : σ → α) (h : ∀ s, I s → J (f s) s) : Unless B I J E (read f) :=
  ⟨within_read f, fun s hs => .inr (h s hs)⟩

theorem unless_modify {J : Unit → σ → Prop} {f : σ → σ} (hB : ∀ s, B s → B (f s))
    (h : ∀ s, I s → J () (f s)) : Unless B I J E (modify f) :=
  ⟨within_modify hB, fun s hs => .inr (h s hs)⟩

/-- What is read is known. -/
theorem unless_known {f : σ → α} {g : α → Prog σ ε β} {a : α} (ha : ∀ s, I s → f s = a)
    (hkept : ∀ b, Within (Kept B) (g b)) (hg : Unless B I K E (g a)) :
    Unless B I K E (read f >>= g) where
  kept := (within_read f).bind hkept
  ends s hs := by
    rw [wp_bind, wp_read, seqPost_ok, ha s hs]
    exact hg.ends s hs

/-- What moves within a set however it ends. -/
theorem unless_of_within {p : Prog σ ε α} (hkept : Within (Kept B) p) (h : Within (Kept I) p) :
    Unless B I (fun _ => I) (fun _ => I) p where
  kept := hkept
  ends s hs := by
    refine wp_mono (h.wp s) fun r s' hr => .inr ?_
    cases r with
    | ok a => exact hr hs
    | raise e => exact hr hs
    | halt => trivial

/-- The promise of a part that begins where the excuse may have come already. -/
theorem Unless.run {p : Prog σ ε α} (h : Unless B I J E p) {s : σ} (hs : B s ∨ I s) :
    wp p (fun r s' => B s' ∨ Ended J E r s') s := by
  rcases hs with hB | hI
  · exact .inl (h.kept s hB)
  · exact h.ends s hI

theorem Unless.bind {p : Prog σ ε α} {f : α → Prog σ ε β} (hp : Unless B I J E p)
    (hf : ∀ a, Unless B (J a) K E (f a)) : Unless B I K E (p >>= f) where
  kept := hp.kept.bind fun a => (hf a).kept
  ends s hs := by
    rw [wp_bind]
    refine wp_mono (hp.ends s hs) fun r s' hr => ?_
    cases r with
    | ok a => exact (hf a).run hr
    | raise e => exact hr
    | halt => exact hr

theorem Within.keeps {p : Prog σ ε α} {s s' : σ} {r : Result ε α} (h : Within (Kept I) p) (hs : I s)
    (hrun : p s = (r, s')) : I s' := by
  have hkept : I (p s).2 := h s hs
  rw [hrun] at hkept
  exact hkept

/-- A set that is kept all along, by a rest that may rely on what was returned to it. -/
theorem kept_bind {p : Prog σ ε α} {f : α → Prog σ ε β} {T : α → Prop} (hp : Within (Kept I) p)
    (hT : ∀ s a s', I s → p s = (.ok a, s') → T a) (hf : ∀ a, T a → Within (Kept I) (f a)) :
    Within (Kept I) (p >>= f) := by
  refine within_of_wp fun s hs => ?_
  show wp (p >>= f) (fun _ s' => I s') s
  rw [wp_bind]
  cases hrun : p s with
  | mk r s₁ =>
      have hs₁ : I s₁ := hp.keeps hs hrun
      refine wp_of_run hrun ?_
      cases r with
      | ok a => exact hf a (hT s a s₁ hs hrun) s₁ hs₁
      | raise e => exact hs₁
      | halt => exact hs₁

theorem unless_ite {c : Prop} [Decidable c] {p q : Prog σ ε α} (hp : c → Unless B I J E p)
    (hq : ¬ c → Unless B I J E q) : Unless B I J E (if c then p else q) := by
  split
  · exact hp ‹_›
  · exact hq ‹_›

theorem unless_onlyIf {c : Prop} [Decidable c] {J : Unit → σ → Prop} {p : Prog σ ε Unit}
    (hp : c → Unless B I J E p) (hI : ¬ c → ∀ s, I s → J () s) : Unless B I J E (onlyIf c p) := by
  unfold onlyIf
  exact unless_ite hp fun hc => (unless_ret ()).pre (hI hc)

theorem Unless.tryExcept {p : Prog σ ε α} {h : ε → Prog σ ε α} {F : ε → σ → Prop}
    (hp : Unless B I J F p) (hh : ∀ e, Unless B (F e) J E (h e)) :
    Unless B I J E (tryExcept p h) where
  kept := hp.kept.tryExcept fun e => (hh e).kept
  ends s hs := by
    rw [wp_tryExcept]
    refine wp_mono (hp.ends s hs) fun r s' hr => ?_
    cases r with
    | ok a => exact hr
    | raise e => exact (hh e).run hr
    | halt => exact hr

theorem Unless.reraising {p : Prog σ ε α} {h : ε → Prog σ ε Unit} {F : ε → σ → Prop}
    (hp : Unless B I J F p) (hh : ∀ e, Unless B (F e) (fun _ => E e) E (h e)) :
    Unless B I J E (reraising p h) :=
  hp.tryExcept fun e => (hh e).bind fun _ => unless_raise e

theorem Unless.swallow {J : Unit → σ → Prop} {p : Prog σ ε Unit}
    (hp : Unless B I J (fun _ => J ()) p) : Unless B I J E (swallow p) :=
  hp.tryExcept fun _ => unless_ret ()

theorem Unless.tryFinally {p : Prog σ ε α} {q : Prog σ ε Unit} {J' : α → σ → Prop}
    {E' : ε → σ → Prop} (hp : Unless B I J E p) (hq : Within (Kept B) q)
    (hok : ∀ a, Unless B (J a) (fun _ => J' a) E' q)
    (hraise : ∀ e, Unless B (E e) (fun _ => E' e) E' q) : Unless B I J' E' (tryFinally p q) where
  kept := hp.kept.tryFinally hq
  ends s hs := by
    rw [wp_tryFinally]
    refine wp_mono (hp.ends s hs) fun r s' hr => ?_
    cases r with
    | ok a =>
        have hend : Unless B (J a) J' E' (q >>= fun _ => ret a) :=
          (hok a).bind fun _ => unless_ret a
        have hrun := hend.run hr
        rw [wp_bind] at hrun
        exact hrun
    | raise e =>
        have hend : Unless B (E e) J' E' (q >>= fun _ => raise e) :=
          (hraise e).bind fun _ => unless_raise e
        have hrun := hend.run hr
        rw [wp_bind] at hrun
        exact hrun
    | halt => exact hr

/-- A handler that is never come to. -/
theorem Unless.reraisingIf {again : Bool} {J : Unit → σ → Prop} {p : Prog σ ε Unit}
    {h : ε → Prog σ ε Unit} (hp : Unless B I J (fun _ _ => False) p)
    (hh : ∀ e, Within (Kept B) (h e)) : Unless B I J E (reraisingIf again p h) := by
  unfold Prog.reraisingIf
  exact unless_ite (fun _ => hp.reraising fun e => unless_never (hh e))
    fun _ => hp.tryExcept fun e => unless_never (hh e)

/-- The rule for a loop: before each turn, what holds of the items that are left. -/
theorem unless_forEach {f : β → Prog σ ε Unit} {P : List β → σ → Prop} (bs : List β)
    (hf : ∀ b rest, (∃ before, bs = before ++ b :: rest) →
      Unless B (P (b :: rest)) (fun _ => P rest) E (f b)) :
    Unless B (P bs) (fun _ => P []) E (forEach bs f) := by
  have hgo : ∀ rest, (∃ before, bs = before ++ rest) →
      Unless B (P rest) (fun _ => P []) E (forEach rest f) := by
    intro rest
    induction rest with
    | nil =>
        intro _
        exact unless_ret (J := fun _ => P []) ()
    | cons b rest ih =>
        intro hsuffix
        obtain ⟨before, hbs⟩ := hsuffix
        refine Unless.bind (hf b rest ⟨before, hbs⟩) fun _ => ih ⟨before ++ [b], ?_⟩
        simp [hbs]
  exact hgo bs ⟨[], rfl⟩

end Unless

end Prog

end Effect
