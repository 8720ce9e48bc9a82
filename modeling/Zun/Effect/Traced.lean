import Zun.Effect.Watched

/-!
# Programs whose calls are written down

A program calls on the outside, and what it is answered is not known before.  `consult` makes a call: an
oracle answers it, and the state keeps a log of what was asked, in which state, and what came back.

A condition on the entries of the log says which answers a result is about.  `Under ok I` holds of a
state that is in `I` if the log meets the condition, and `Traced ok H I J E p` is the judgement of
`Watched` under it.  A call is the only place where the condition is used.
-/

namespace Effect

/-- A call, in which state it was made, and the exception it was answered with. -/
structure Entry (σ κ ε : Type) where
  call : κ
  answer : Option ε
  before : σ

/-- A state, and the calls that led to it, the last one first. -/
structure Log (σ κ ε : Type) where
  state : σ
  log : List (Entry σ κ ε) := []

variable {σ κ ε α β : Type}

namespace Prog

/-- Read a function of the state. -/
def look (f : σ → α) : Prog (Log σ κ ε) ε α := read fun w => f w.state

/-- Change the state. -/
def change (f : σ → σ) : Prog (Log σ κ ε) ε Unit := modify fun w => { w with state := f w.state }

/-- Read what an oracle has for this point of the run. -/
def told (f : Nat → α) : Prog (Log σ κ ε) ε α := read fun w => f w.log.length

/-- Make a call.  It changes the state by `effect` if the oracle lets it. -/
def consult (oracle : Nat → κ → Option ε) (c : κ) (effect : σ → σ) : Prog (Log σ κ ε) ε Unit := fun w =>
  match oracle w.log.length c with
  | none => (.ok (), ⟨effect w.state, ⟨c, none, w.state⟩ :: w.log⟩)
  | some e => (.raise e, ⟨w.state, ⟨c, some e, w.state⟩ :: w.log⟩)

/-- The state is in `I` if the log meets the condition. -/
def Under (ok : Entry σ κ ε → Prop) (I : σ → Prop) (w : Log σ κ ε) : Prop :=
  (∀ e ∈ w.log, ok e) → I w.state

/-- From `I`, a run whose calls meet the condition returns in `J`, raises in `E` or stops in `H`. -/
def Traced (ok : Entry σ κ ε → Prop) (H I : σ → Prop) (J : α → σ → Prop) (E : ε → σ → Prop)
    (p : Prog (Log σ κ ε) ε α) : Prop :=
  Watched (Under ok H) (Under ok I) (fun a => Under ok (J a)) (fun e => Under ok (E e)) p

section Traced

variable {ok : Entry σ κ ε → Prop} {H I I' : σ → Prop} {J J' : α → σ → Prop} {K : β → σ → Prop}
  {E E' : ε → σ → Prop}

theorem Under.mono (h : ∀ s, I s → I' s) {w : Log σ κ ε} (hw : Under ok I w) : Under ok I' w :=
  fun hlog => h w.state (hw hlog)

theorem Traced.conseq {p : Prog (Log σ κ ε) ε α} (h : Traced ok H I J E p) (hI : ∀ s, I' s → I s)
    (hJ : ∀ a s, J a s → J' a s) (hE : ∀ e s, E e s → E' e s) : Traced ok H I' J' E' p :=
  Watched.conseq h (fun _ => Under.mono hI) (fun a _ => Under.mono (hJ a)) fun e _ =>
    Under.mono (hE e)

theorem Traced.pre {p : Prog (Log σ κ ε) ε α} (h : Traced ok H I J E p) (hI : ∀ s, I' s → I s) :
    Traced ok H I' J E p := h.conseq hI (fun _ _ hs => hs) fun _ _ hs => hs

theorem Traced.post {p : Prog (Log σ κ ε) ε α} (h : Traced ok H I J E p)
    (hJ : ∀ a s, J a s → J' a s) : Traced ok H I J' E p :=
  h.conseq (fun _ hs => hs) hJ fun _ _ hs => hs

theorem Traced.raises {p : Prog (Log σ κ ε) ε α} (h : Traced ok H I J E p)
    (hE : ∀ e s, E e s → E' e s) : Traced ok H I J E' p :=
  h.conseq (fun _ hs => hs) (fun _ _ hs => hs) hE

theorem traced_ret {a : α} (h : ∀ s, I s → J a s) : Traced ok H I J E (ret a) :=
  fun _ => Under.mono h

theorem traced_pure {a : α} (h : ∀ s, I s → J a s) : Traced ok H I J E (pure a) := traced_ret h

theorem traced_raise {e : ε} (h : ∀ s, I s → E e s) : Traced ok H I J E (raise e) :=
  fun _ => Under.mono h

theorem traced_change {J : Unit → σ → Prop} {f : σ → σ} (h : ∀ s, I s → J () (f s)) :
    Traced ok H I J E (change f) :=
  watched_modify fun w hw hlog => h w.state (hw hlog)

/-- The rule for a call: what its entry is known to meet may be used. -/
theorem traced_consult {J : Unit → σ → Prop} {oracle : Nat → κ → Option ε} {c : κ} {effect : σ → σ}
    (hok : ∀ s, I s → ok ⟨c, none, s⟩ → J () (effect s))
    (hraise : ∀ e s, I s → ok ⟨c, some e, s⟩ → E e s) :
    Traced ok H I J E (consult oracle c effect) := by
  intro w hw
  show wp (consult oracle c effect) _ w
  unfold wp consult
  cases oracle w.log.length c with
  | none =>
      intro hlog
      obtain ⟨hc, hlog⟩ := List.forall_mem_cons.mp hlog
      exact hok w.state (hw hlog) hc
  | some e =>
      intro hlog
      obtain ⟨hc, hlog⟩ := List.forall_mem_cons.mp hlog
      exact hraise e w.state (hw hlog) hc

theorem Traced.bind {p : Prog (Log σ κ ε) ε α} {f : α → Prog (Log σ κ ε) ε β}
    (hp : Traced ok H I J E p) (hf : ∀ a, Traced ok H (J a) K E (f a)) :
    Traced ok H I K E (p >>= f) := Watched.bind hp hf

/-- What is read is known to the rest. -/
theorem traced_look {f : σ → α} {g : α → Prog (Log σ κ ε) ε β}
    (h : ∀ a, Traced ok H (fun s => I s ∧ f s = a) K E (g a)) : Traced ok H I K E (look f >>= g) := by
  intro w hw
  exact h (f w.state) w fun hlog => ⟨hw hlog, rfl⟩

/-- What is read does not matter. -/
theorem traced_skim {f : σ → α} {g : α → Prog (Log σ κ ε) ε β}
    (h : ∀ a, Traced ok H I K E (g a)) : Traced ok H I K E (look f >>= g) :=
  fun w hw => h (f w.state) w hw

theorem traced_told {f : Nat → α} {g : α → Prog (Log σ κ ε) ε β}
    (h : ∀ a, Traced ok H I K E (g a)) : Traced ok H I K E (told f >>= g) :=
  fun w hw => h (f w.log.length) w hw

theorem Traced.tryExcept {p : Prog (Log σ κ ε) ε α} {h : ε → Prog (Log σ κ ε) ε α}
    (hp : Traced ok H I J E p) (hh : ∀ e, Traced ok H (E e) J E' (h e)) :
    Traced ok H I J E' (tryExcept p h) := Watched.tryExcept hp hh

theorem Traced.swallow {J : Unit → σ → Prop} {p : Prog (Log σ κ ε) ε Unit}
    (hp : Traced ok H I J (fun _ => J ()) p) : Traced ok H I J E (swallow p) := Watched.swallow hp

theorem Traced.reraising {p : Prog (Log σ κ ε) ε α} {h : ε → Prog (Log σ κ ε) ε Unit}
    (hp : Traced ok H I J E p) (hh : ∀ e, Traced ok H (E e) (fun _ => E' e) E' (h e)) :
    Traced ok H I J E' (reraising p h) := Watched.reraising hp hh

theorem Traced.tryFinally {p : Prog (Log σ κ ε) ε α} {q : Prog (Log σ κ ε) ε Unit}
    (hp : Traced ok H I J E p) (hreturn : ∀ a, Traced ok H (J a) (fun _ => J' a) E' q)
    (hraise : ∀ e, Traced ok H (E e) (fun _ => E' e) E' q) :
    Traced ok H I J' E' (tryFinally p q) := Watched.tryFinally hp hreturn hraise

theorem traced_ite {c : Prop} [Decidable c] {p q : Prog (Log σ κ ε) ε α}
    (hp : c → Traced ok H I J E p) (hq : ¬ c → Traced ok H I J E q) :
    Traced ok H I J E (if c then p else q) := watched_ite hp hq

theorem traced_onlyIf {c : Prop} [Decidable c] {J : Unit → σ → Prop} {p : Prog (Log σ κ ε) ε Unit}
    (hp : c → Traced ok H I J E p) (hI : ¬ c → ∀ s, I s → J () s) :
    Traced ok H I J E (onlyIf c p) :=
  watched_onlyIf hp fun hc _ => Under.mono (hI hc)

theorem traced_forEach {f : β → Prog (Log σ κ ε) ε Unit} (bs : List β)
    (hf : ∀ b ∈ bs, Traced ok H I (fun _ => I) E (f b)) :
    Traced ok H I (fun _ => I) E (forEach bs f) := watched_forEach bs hf

/-- The rule for a loop whose turns all begin in `I`. -/
theorem traced_loop {body : β → Prog (Log σ κ ε) ε (β ⊕ α)} (hstop : ∀ s, I s → H s)
    (hbody : ∀ b, Traced ok H I (fun r s => Sum.elim (fun _ => I s) (fun a => J a s) r) E (body b))
    (n : Nat) (b : β) : Traced ok H I J E (loop n body b) := by
  refine watched_loop (L := fun _ => Under ok I) (fun _ _ => Under.mono hstop) (fun b => ?_) n b
  refine Watched.post (hbody b) fun r w hw => ?_
  cases r with
  | inl b' => exact hw
  | inr a => exact hw

/-- What holds at every end of a run whose calls meet the condition. -/
theorem Traced.final {p : Prog (Log σ κ ε) ε α} (h : Traced ok H I (fun _ => H) (fun _ => H) p) {s : σ}
    (hs : I s) (hlog : ∀ e ∈ (p ⟨s, []⟩).2.log, ok e) : H (p ⟨s, []⟩).2.state :=
  Watched.final h (s := ⟨s, []⟩) (fun _ => hs) hlog

end Traced

@[simp] theorem wp_look (f : σ → α) (Q : Result ε α → Log σ κ ε → Prop) (w : Log σ κ ε) :
    wp (look f) Q w = Q (.ok (f w.state)) w := rfl

@[simp] theorem wp_change (f : σ → σ) (Q : Result ε Unit → Log σ κ ε → Prop) (w : Log σ κ ε) :
    wp (change f) Q w = Q (.ok ()) { w with state := f w.state } := rfl

theorem consult_none {oracle : Nat → κ → Option ε} {c : κ} {effect : σ → σ} {w : Log σ κ ε}
    (h : oracle w.log.length c = none) :
    consult oracle c effect w = (.ok (), ⟨effect w.state, ⟨c, none, w.state⟩ :: w.log⟩) := by
  unfold consult
  rw [h]

theorem consult_some {oracle : Nat → κ → Option ε} {c : κ} {effect : σ → σ} {w : Log σ κ ε} {e : ε}
    (h : oracle w.log.length c = some e) :
    consult oracle c effect w = (.raise e, ⟨w.state, ⟨c, some e, w.state⟩ :: w.log⟩) := by
  unfold consult
  rw [h]

/-- A call that is refused leaves the state alone, and one that is answered has its effect. -/
theorem wp_consult {oracle : Nat → κ → Option ε} {c : κ} {effect : σ → σ} {w : Log σ κ ε}
    {Q : Result ε Unit → Log σ κ ε → Prop}
    (hrefuse : ∀ e w', oracle w.log.length c = some e → w'.state = w.state → Q (.raise e) w')
    (hok : ∀ w', oracle w.log.length c = none → w'.state = effect w.state → Q (.ok ()) w') :
    wp (consult oracle c effect) Q w := by
  cases hcall : oracle w.log.length c with
  | some e => exact wp_of_run (consult_some hcall) (hrefuse e _ hcall rfl)
  | none => exact wp_of_run (consult_none hcall) (hok _ hcall rfl)

/-! ## What a run writes down -/

/-- The entries that come to the log are all of a kind. -/
def Adds (P : Entry σ κ ε → Prop) (w w' : Log σ κ ε) : Prop := ∀ e ∈ w'.log, e ∈ w.log ∨ P e

instance (P : Entry σ κ ε → Prop) : IsPreorder (Log σ κ ε) (Adds P) where
  refl _ _ he := .inl he
  trans _ _ _ h h' e he := by
    rcases h' e he with he | he
    · exact h e he
    · exact .inr he

section Adds

variable {P : Entry σ κ ε → Prop}

theorem adds_change (f : σ → σ) : Within (Adds P) (change f : Prog (Log σ κ ε) ε Unit) := fun _ _ he => .inl he

theorem adds_look (f : σ → α) : Within (Adds P) (look f : Prog (Log σ κ ε) ε α) := within_read _

theorem adds_told (f : Nat → α) : Within (Adds P) (told f : Prog (Log σ κ ε) ε α) := within_read _

theorem adds_consult {oracle : Nat → κ → Option ε} {c : κ} {effect : σ → σ} (h : ∀ answer s, P ⟨c, answer, s⟩) :
    Within (Adds P) (consult oracle c effect) := by
  intro w e he
  unfold consult at he
  cases horacle : oracle w.log.length c with
  | none =>
      rw [horacle] at he
      rcases List.mem_cons.mp he with rfl | he
      · exact .inr (h _ _)
      · exact .inl he
  | some ε' =>
      rw [horacle] at he
      rcases List.mem_cons.mp he with rfl | he
      · exact .inr (h _ _)
      · exact .inl he

end Adds

/-- The log only grows. -/
def Grows (w w' : Log σ κ ε) : Prop := ∀ e ∈ w.log, e ∈ w'.log

instance : IsPreorder (Log σ κ ε) Grows where
  refl _ _ he := he
  trans _ _ _ h h' e he := h' e (h e he)

theorem grows_change (f : σ → σ) : Within Grows (change f : Prog (Log σ κ ε) ε Unit) := fun _ _ he => he

theorem grows_consult (oracle : Nat → κ → Option ε) (c : κ) (effect : σ → σ) :
    Within Grows (consult oracle c effect) := by
  intro w e he
  unfold consult
  cases oracle w.log.length c with
  | none => exact List.mem_cons_of_mem _ he
  | some ε' => exact List.mem_cons_of_mem _ he

/-- A call is in the log of whatever follows it. -/
theorem mem_consult_then {oracle : Nat → κ → Option ε} {c : κ} {effect : σ → σ} {f : Unit → Prog (Log σ κ ε) ε α}
    (hf : Within Grows (f ())) (w : Log σ κ ε) :
    wp (consult oracle c effect >>= f) (fun _ w' => ∃ e ∈ w'.log, e.call = c) w := by
  rw [wp_bind]
  unfold wp consult
  cases oracle w.log.length c with
  | none => exact ⟨_, hf _ _ (List.mem_cons_self ..), rfl⟩
  | some ε' => exact ⟨_, List.mem_cons_self .., rfl⟩

end Prog

end Effect
