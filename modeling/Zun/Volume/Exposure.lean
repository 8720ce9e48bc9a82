import Zun.Data.IpNetwork
import Zun.Volume.Nfs

/-!
# Shares that are open to more than single hosts

An attach looks at the access rules of its share before it grants the node access and mounts, and refuses when a
rule lets in more than one host.  Whether it does is read off the end of the rule: with a slash in it, it has to
end in `/32`.  That is a single host in one of the two families, and not the only way to write one.
-/

namespace Zun

open Effect Prog

namespace Volume

variable {env : Env} {s : Node} {v : Mapping} {share : String}

/-! ## What an attach does -/

/-- The calls of a run, newest first. -/
def callsOf (p : Prog Node Failure Unit) (s : Node) : List Call :=
  ((p s).2.log.take ((p s).2.log.length - s.log.length)).map (·.1)

/-- The attach asks for the address that it is going to grant. -/
def GoesOn (env : Env) (v : Mapping) (s : Node) : Prop :=
  ∃ server, Call.localIp server ∈ callsOf (nfsAttach env v) s

/-- The attach comes to the rules of the share, and is told them. -/
structure Comes (env : Env) (v : Mapping) (share : String) (s : Node) : Prop where
  provider : v.provider = .nfs
  «export» : v.options.export ≠ none
  dedicated : env.dedicated = true
  told : env.refuse s.tick (.accessList share) = none

/-- Calls are only added to the log. -/
def Logs (s s' : Node) : Prop := ∃ new, s'.log = new ++ s.log

instance : IsPreorder Node Logs where
  refl _ := ⟨[], rfl⟩
  trans _ _ _ := by
    rintro ⟨new, h⟩ ⟨new', h'⟩
    exact ⟨new' ++ new, by rw [h', h, List.append_assoc]⟩

theorem logs_call {c : Call} {effect : Node → Node} (h : ∀ s, (effect s).log = s.log) :
    Within Logs (call env c effect) :=
  within_call (fun s => ⟨[(c, env.refuse s.tick c)], rfl⟩)
    fun s => ⟨[(c, env.refuse s.tick c)], by rw [h]; rfl⟩

theorem logs_ask {α : Type} (c : Call) (f : Node → α) : Within Logs (ask env c f) :=
  (logs_call fun _ => rfl).bind fun _ => within_read _

theorem logs_waitActive (share ip : String) (n : Nat) : Within Logs (waitActive env share ip n) := by
  induction n with
  | zero => exact within_raise _
  | succ n ih =>
      refine (logs_ask _ _).bind fun rules => (within_read _).bind fun state => ?_
      refine within_ite ?_ ih
      cases state with
      | active => exact within_pure _
      | error => exact within_raise _
      | pending => exact ih

theorem logs_grant (share ip : String) : Within Logs (grant env share ip) := by
  refine (logs_ask _ _).bind fun rules => within_ite (logs_waitActive share ip _) ?_
  refine Within.bind (logs_call ?_) fun _ => logs_waitActive share ip _
  exact fun _ => rfl

theorem logs_mountExport (source : String) (p : NodePath) : Within Logs (mountExport env source p) := by
  refine Within.tryExcept (logs_call ?_) fun e => within_ite (within_raise _) (within_raise _)
  exact fun _ => rfl

theorem logs_validateMounted (p : NodePath) (source : String) : Within Logs (validateMounted env p source) := by
  refine Within.tryExcept ((logs_ask _ _).bind fun mounts => ?_) fun e =>
    within_ite (within_pure _) (within_raise _)
  split
  · exact within_pure _
  · exact (within_raise _).onlyIf

theorem logs_applyFsGroup (o : Options) (p : NodePath) : Within Logs (applyFsGroup env o p) := by
  refine (Within.swallow ?_).onlyIf
  refine Within.bind (logs_call ?_) fun _ => logs_call ?_
  · exact fun _ => rfl
  · exact fun _ => rfl

theorem logs_attachPath (v : Mapping) (source : String) : Within Logs (attachPath env v source) := by
  refine Within.bind (logs_call ?_) fun _ => Within.bind ?_ fun _ => logs_applyFsGroup _ _
  · exact fun _ => rfl
  · refine ((logs_ask _ _).tryExcept fun _ => within_pure _).bind fun mounted => ?_
    exact within_ite (logs_validateMounted _ _) (logs_mountExport _ _)

/-! ## Which attaches go on -/

def rulesOf (share : String) (s : Node) : List Rule := s.rules.filter (·.share = share)

theorem callsOf_of_log {p : Prog Node Failure Unit} {new : List (Call × Option Failure)}
    (h : (p s).2.log = new ++ s.log) : callsOf p s = new.map (·.1) := by
  rw [callsOf, h, List.length_append, Nat.add_sub_cancel, List.take_left']
  rfl

/-- What is so of an attach that comes to the call for its own address, whatever follows. -/
theorem wp_localIpFor {α : Type} {source : String} {f : String → Prog Node Failure α}
    (h : ∀ ip, Within Logs (f ip)) :
    wp (localIpFor env source >>= f) (fun _ s' => ∃ new, s'.log = new ++ s.log ∧
      ∃ server, Call.localIp server ∈ new.map (·.1)) s := by
  have hcall : ∀ {t : Node}, Logs (s.turn env (.localIp (serverOf source))) t →
      ∃ new, t.log = new ++ s.log ∧ ∃ server, Call.localIp server ∈ new.map (·.1) := by
    rintro t ⟨new, hlog⟩
    refine ⟨new ++ [(.localIp (serverOf source), env.refuse s.tick (.localIp (serverOf source)))], ?_,
      serverOf source, ?_⟩
    · rw [hlog, List.append_assoc]
      rfl
    · rw [List.map_append]
      exact List.mem_append_right _ (List.mem_cons_self ..)
  rw [wp_bind, localIpFor, ask, wp_bind]
  refine wp_call (fun _ => ?_) fun e _ => ?_
  · rw [seqPost_ok, wp_read, seqPost_ok]
    exact wp_mono ((h _).wp _) fun _ _ => hcall
  · exact hcall ⟨[], rfl⟩

theorem wp_bind_bind {α β : Type} {p : Prog Node Failure α} (f : α → Prog Node Failure β)
    (g : β → Prog Node Failure Unit) (Q : Result Failure Unit → Node → Prop) :
    wp (p >>= f) (seqPost g Q) s ↔ wp (p >>= fun a => f a >>= g) Q s := by
  rw [wp_bind, wp_bind]
  unfold wp
  cases (p s).1 with
  | ok a => exact iff_of_eq (wp_bind g Q).symm
  | raise e => exact Iff.rfl
  | halt => exact Iff.rfl

/-- The attach is told the rules, and the code finds none of them wide. -/
def Passes (env : Env) (v : Mapping) (share : String) (s : Node) : Prop :=
  Comes env v share s ∧ ∀ r ∈ rulesOf share s, r.wide = false

/-- An attach that passes goes on, and any other makes no call but the one for the rules. -/
def Looked (env : Env) (v : Mapping) (share : String) (s s' : Node) : Prop :=
  ∃ new, s'.log = new ++ s.log ∧
    (Passes env v share s ∧ (∃ server, Call.localIp server ∈ new.map (·.1)) ∨
      ¬ Passes env v share s ∧ ∀ c ∈ new.map (·.1), c = .accessList share)

theorem Looked.none (h : ¬ Passes env v share s) : Looked env v share s s := ⟨[], rfl, .inr ⟨h, by simp⟩⟩

theorem Looked.told (h : ¬ Passes env v share s) : Looked env v share s (s.turn env (.accessList share)) :=
  ⟨[(.accessList share, env.refuse s.tick (.accessList share))], rfl, .inr ⟨h, by simp⟩⟩

/-- What follows the rules, when none of them is wide. -/
theorem looked_after {source : String} (h : Passes env v share s) :
    wp (localIpFor env source >>= fun ip => grant env share ip)
      (seqPost (fun _ => attachPath env v source) fun _ => Looked env v share s)
      (s.turn env (.accessList share)) := by
  refine (wp_bind_bind _ _ _).mpr (wp_mono (wp_localIpFor fun ip => ?_) ?_)
  · exact (logs_grant share ip).bind fun _ => logs_attachPath v source
  · rintro _ t ⟨new, hlog, server, hserver⟩
    refine ⟨new ++ [(.accessList share, env.refuse s.tick (.accessList share))], ?_, .inl ⟨h, server, ?_⟩⟩
    · rw [hlog, List.append_assoc]
      rfl
    · rw [List.map_append]
      exact List.mem_append_left _ hserver

theorem wp_nfsAttach_looked (env : Env) (s : Node) (hshare : v.options.shareId = some share) :
    wp (nfsAttach env v) (fun _ => Looked env v share s) s := by
  unfold nfsAttach validateVolumeProvider
  rw [wp_ite]
  split
  · next hprovider =>
    cases hexport : v.options.export with
    | none => exact .none fun h => h.1.export hexport
    | some source =>
        simp only [wp_bind, refuseUnlessNodeIsOurs]
        refine wp_onlyIf (fun hdedicated => .none fun h => ?_) fun hdedicated => ?_
        · rw [h.1.dedicated] at hdedicated
          cases hdedicated
        simp only [seqPost_ok, wp_bind, grantAccess, hshare, refuseIfGrantsAreWiderThanHosts, accessRules, ask]
        refine wp_call (fun hok => ?_) fun e hraise => .told fun h => ?_
        · simp only [seqPost_ok, wp_read, id]
          refine wp_onlyIf (fun hwide => .told fun h => ?_) fun hwide => ?_
          · obtain ⟨r, hr⟩ := List.exists_mem_of_ne_nil _ hwide
            obtain ⟨hr, hw⟩ := List.mem_filter.mp hr
            rw [h.2 r hr] at hw
            cases hw
          · refine looked_after ⟨⟨List.mem_singleton.mp hprovider, by rw [hexport]; exact Option.some_ne_none _,
              (Bool.not_eq_false _).mp hdedicated, hok⟩, fun r hr => Bool.eq_false_iff.mpr fun hw => ?_⟩
            exact hwide (List.ne_nil_of_mem (List.mem_filter.mpr ⟨hr, hw⟩))
        · rw [h.1.told] at hraise
          cases hraise
  · next hprovider => exact .none fun h => hprovider (by simp [h.1.provider])

/-- An attach goes on past the rules if it is told them and the code finds none of them wide. -/
theorem goesOn_iff (hshare : v.options.shareId = some share) : GoesOn env v s ↔ Passes env v share s := by
  obtain ⟨new, hlog, ⟨hpasses, hserver⟩ | ⟨hpasses, hcalls⟩⟩ := wp_nfsAttach_looked env s hshare
  · rw [GoesOn, callsOf_of_log hlog]
    exact iff_of_true hserver hpasses
  · rw [GoesOn, callsOf_of_log hlog]
    refine iff_of_false ?_ hpasses
    rintro ⟨server, hmem⟩
    cases hcalls _ hmem

/-- A call that changes the share or the node. -/
def isGrantOrMount : Call → Bool
  | .allowAccess .. => true
  | .mount .. => true
  | _ => false

/-- Nothing is granted or mounted by an attach that does not go on. -/
theorem goesOn_of_grantOrMount (hshare : v.options.shareId = some share) {c : Call}
    (hc : c ∈ callsOf (nfsAttach env v) s) (h : isGrantOrMount c = true) : GoesOn env v s := by
  obtain ⟨new, hlog, ⟨hpasses, hserver⟩ | ⟨hpasses, hcalls⟩⟩ := wp_nfsAttach_looked env s hshare
  · rw [GoesOn, callsOf_of_log hlog]
    exact hserver
  · rw [callsOf_of_log hlog] at hc
    rw [hcalls c hc] at h
    cases h

/-! ## What the rules say -/

open IpNetwork Strings

/-- It is of type `ip` and names one address. -/
def Rule.Host (r : Rule) : Prop := r.accessType = "ip" ∧ ∃ n, parse r.accessTo = some n ∧ n.Single

/-- What stands behind the slash. -/
def Rule.lengthText (r : Rule) : Option String :=
  match partition '/' r.accessTo with
  | (_, true, length) => some length
  | _ => none

/-- It is not of type `ip`, or names a wider network by any length but `32`. -/
def Rule.PlainlyWide (r : Rule) : Prop :=
  r.accessType ≠ "ip" ∨
    ∃ n, parse r.accessTo = some n ∧ n.prefixLength < n.family.width ∧ r.lengthText ≠ some "32"

/-- It names a network of the wider family by `/32`. -/
def Rule.Exposed (r : Rule) : Prop :=
  r.accessType = "ip" ∧ ∃ n, parse r.accessTo = some n ∧ n.family = .v6 ∧ r.lengthText = some "32"

/-- It names one address, with a length that is not written `32`. -/
def Rule.SpelledOut (r : Rule) : Prop :=
  r.accessType = "ip" ∧ ∃ n length, parse r.accessTo = some n ∧ n.prefixLength = n.family.width ∧
    r.lengthText = some length ∧ length ≠ "32"

/-- The rules that Manila may return for a share: those of type `ip` name a network. -/
structure AccessList (share : String) where
  rules : List Rule
  ofShare : ∀ r ∈ rules, r.share = share
  network : ∀ r ∈ rules, r.accessType = "ip" → (parse r.accessTo).isSome = true

/-- The attach goes on only when every rule names one address, and always then. -/
structure Guarded (share : String) (rules : List Rule) : Prop where
  only : ∀ (env : Env) (v : Mapping) (s : Node), v.options.shareId = some share → rulesOf share s = rules →
    (GoesOn env v s ∨ ∃ c ∈ callsOf (nfsAttach env v) s, isGrantOrMount c = true) → ∀ r ∈ rules, r.Host
  refusesNone : ∀ (env : Env) (v : Mapping) (s : Node), v.options.shareId = some share →
    rulesOf share s = rules → Comes env v share s → (∀ r ∈ rules, r.Host) → GoesOn env v s

theorem not_isWhitespace {c : Char} (h : isAddressChar c = true) : c.isWhitespace = false := by
  refine Bool.eq_false_iff.mpr fun hblank => ?_
  change (decide (c = ' ') || decide (c = '\t') || decide (c = '\r') || decide (c = '\n')) = true at hblank
  simp only [Bool.or_eq_true, decide_eq_true_eq] at hblank
  rcases hblank with ((rfl | rfl) | rfl) | rfl
  · exact absurd h (by decide)
  · exact absurd h (by decide)
  · exact absurd h (by decide)
  · exact absurd h (by decide)

theorem strip_eq_self {t : String} (h : ∀ c ∈ t.toList, c.isWhitespace = false) : strip t = t := by
  have hdrop : ∀ l : List Char, (∀ c ∈ l, c.isWhitespace = false) → l.dropWhile Char.isWhitespace = l := by
    intro l hl
    cases l with
    | nil => rfl
    | cons c l => rw [List.dropWhile_cons, hl c (List.mem_cons_self ..)]; rfl
  rw [strip, hdrop _ h, hdrop _ fun c hc => h c (List.mem_reverse.mp hc), List.reverse_reverse,
    String.ofList_toList]

/-- What stands behind the last separator is told by the end of the text. -/
theorem suffix_iff {a : Char} {k l m : List Char} (hl : a ∉ l) (hm : a ∉ m) :
    a :: m <:+ k ++ a :: l ↔ l = m := by
  constructor
  · rintro ⟨k', heq⟩
    exact (append_cons_inj_of_notMem hm hl heq).2.symm
  · rintro rfl
    exact List.suffix_append k (a :: l)

section

variable {r : Rule} {n : Network}

/-- A network without a length is one address, and not wide to the code. -/
theorem cases_of_parse (hip : r.accessType = "ip") (h : parse r.accessTo = some n) :
    (r.lengthText = none ∧ n.prefixLength = n.family.width ∧ r.wide = false) ∨
      ∃ length, r.lengthText = some length ∧ decimal length.toList = some n.prefixLength ∧
        (r.wide = true ↔ length ≠ "32") := by
  obtain ⟨hchars, hcases⟩ := parse_cases h
  have hstrip := strip_eq_self fun c hc => not_isWhitespace (hchars c hc)
  have hwide : r.wide = (r.accessTo.toList.contains '/' && !r.accessTo.endsWith "/32") := by
    rw [Rule.wide, hstrip, hip]
    rfl
  rcases hcases with ⟨hslash, hbits⟩ | ⟨text, length, hs, htext, hdigits, hbits⟩
  · refine .inl ⟨?_, hbits, ?_⟩
    · rcases partition_cases '/' r.accessTo with ⟨hpart, -⟩ | ⟨k, v, -, hs, -⟩
      · simp only [Rule.lengthText, hpart]
      · exact absurd (by rw [hs]; simp) hslash
    · rw [hwide, List.contains_eq_mem, decide_eq_false hslash, Bool.false_and]
  · have hslash : '/' ∉ length.toList := fun hmem => absurd (hdigits _ hmem) (by decide)
    have hlist : r.accessTo.toList = text.toList ++ '/' :: length.toList := by
      rw [hs, String.toList_append, String.toList_append, List.append_assoc]
      rfl
    refine .inr ⟨length, ?_, hbits, ?_⟩
    · have hpart : partition '/' r.accessTo = (text, true, length) := by
        rw [hs]
        exact partition_append length htext
      simp only [Rule.lengthText, hpart]
    · have hends : r.accessTo.endsWith "/32" = true ↔ length = "32" := by
        have hslice : r.accessTo.endsWith "/32" = true ↔
            ("/32" : String).toList <:+ r.accessTo.toSlice.copy.toList := String.Slice.endsWith_string_iff
        have htail : '/' :: ("32" : String).toList <:+ text.toList ++ '/' :: length.toList ↔
            length.toList = ("32" : String).toList := suffix_iff hslash (by decide)
        rw [hslice, String.copy_toSlice, hlist, ← String.toList_inj]
        exact htail
      have hmem : r.accessTo.toList.contains '/' = true := by
        rw [List.contains_iff_mem, hlist]
        simp
      rw [hwide, hmem, Bool.true_and, Bool.not_eq_true', ← Bool.not_eq_true, hends]

/-- The code finds a rule wide that is, but for an exposed one, or that is spelled out. -/
theorem wide_iff (h : r.accessType = "ip" → (parse r.accessTo).isSome = true) :
    r.wide = true ↔ r.PlainlyWide ∨ r.SpelledOut := by
  by_cases hip : r.accessType = "ip"
  · obtain ⟨n, hn⟩ := Option.isSome_iff_exists.mp (h hip)
    have hparse : ∀ {m}, parse r.accessTo = some m → m = n := fun hm => Option.some.inj (hm.symm.trans hn)
    rcases cases_of_parse hip hn with ⟨hnone, hbits, hwide⟩ | ⟨length, hlength, hbits, hwide⟩
    · refine iff_of_false (by rw [hwide]; decide) ?_
      rintro ((hne | ⟨m, hm, hlt, -⟩) | ⟨-, m, length, hm, -, hlength, -⟩)
      · exact hne hip
      · rw [hparse hm, hbits] at hlt
        exact lt_irrefl _ hlt
      · rw [hnone] at hlength
        cases hlength
    · rw [hwide]
      constructor
      · intro hne
        rcases lt_or_eq_of_le n.prefixLength_le with hlt | heq
        · refine .inl (.inr ⟨n, hn, hlt, ?_⟩)
          rw [hlength]
          exact fun heq => hne (Option.some.inj heq)
        · exact .inr ⟨hip, n, length, hn, heq, hlength, hne⟩
      · rintro ((hne | ⟨m, -, -, hne⟩) | ⟨-, m, length', -, -, hlength', hne⟩)
        · exact absurd hip hne
        · rw [hlength] at hne
          exact fun heq => hne (congrArg some heq)
        · rw [hlength] at hlength'
          rw [Option.some.inj hlength']
          exact hne
  · refine iff_of_true ?_ (.inl (.inl hip))
    simp only [Rule.wide, bne_iff_ne.mpr hip, Bool.true_or]

/-- A rule names something else than one address if it is plainly wide or exposed. -/
theorem not_host_iff (h : r.accessType = "ip" → (parse r.accessTo).isSome = true) :
    ¬ r.Host ↔ r.PlainlyWide ∨ r.Exposed := by
  by_cases hip : r.accessType = "ip"
  · obtain ⟨n, hn⟩ := Option.isSome_iff_exists.mp (h hip)
    have hparse : ∀ {m}, parse r.accessTo = some m → m = n := fun hm => Option.some.inj (hm.symm.trans hn)
    have hhost : r.Host ↔ n.prefixLength = n.family.width := by
      rw [← n.single_iff]
      constructor
      · rintro ⟨-, m, hm, hsingle⟩
        rw [← hparse hm]
        exact hsingle
      · exact fun hsingle => ⟨hip, n, hn, hsingle⟩
    rw [hhost]
    rcases cases_of_parse hip hn with ⟨hnone, hbits, -⟩ | ⟨length, hlength, hbits, -⟩
    · refine iff_of_false (not_not_intro hbits) ?_
      rintro ((hne | ⟨m, hm, hlt, -⟩) | ⟨-, m, hm, -, hlength⟩)
      · exact hne hip
      · rw [hparse hm, hbits] at hlt
        exact lt_irrefl _ hlt
      · rw [hnone] at hlength
        cases hlength
    · by_cases htext : length = "32"
      · rw [htext] at hlength hbits
        have hbits : n.prefixLength = 32 := (Option.some.inj hbits).symm
        rw [hbits]
        constructor
        · intro hne
          refine .inr ⟨hip, n, hn, ?_, hlength⟩
          cases hfamily : n.family with
          | v4 => exact absurd (by rw [hfamily]; rfl) hne
          | v6 => rfl
        · rintro ((hne | ⟨m, hm, hlt, hne⟩) | ⟨-, m, hm, hfamily, -⟩)
          · exact absurd hip hne
          · exact absurd hlength hne
          · rw [hparse hm] at hfamily
            rw [hfamily]
            decide
      · constructor
        · intro hne
          refine .inl (.inr ⟨n, hn, lt_of_le_of_ne n.prefixLength_le hne, ?_⟩)
          rw [hlength]
          exact fun heq => htext (Option.some.inj heq)
        · rintro ((hne | ⟨m, hm, hlt, -⟩) | ⟨-, m, -, -, hlength'⟩)
          · exact absurd hip hne
          · rw [hparse hm] at hlt
            exact ne_of_lt hlt
          · rw [hlength] at hlength'
            exact absurd (Option.some.inj hlength') htext
  · exact iff_of_true (fun hhost => hip hhost.1) (.inl (.inl hip))

end

/-- An attach of the share that nothing stands in the way of. -/
def plainAttach (share : String) : Mapping :=
  { volume := "v", options := { «export» := some "fs:/share", shareId := some share } }

theorem guarded_iff_wide (share : String) (list : AccessList share) : Guarded share list.rules ↔
    ((∀ r ∈ list.rules, r.wide = false) ↔ ∀ r ∈ list.rules, r.Host) := by
  have hrules : rulesOf share { rules := list.rules } = list.rules :=
    List.filter_eq_self.mpr fun r hr => decide_eq_true (list.ofShare r hr)
  constructor
  · intro h
    have hcomes : Comes {} (plainAttach share) share { rules := list.rules } := ⟨rfl, Option.some_ne_none _, rfl, rfl⟩
    constructor
    · intro hnone
      refine h.only {} (plainAttach share) _ rfl hrules (.inl ((goesOn_iff rfl).mpr ⟨hcomes, ?_⟩))
      rw [hrules]
      exact hnone
    · intro hhost
      have hgoes := (goesOn_iff rfl).mp (h.refusesNone {} (plainAttach share) _ rfl hrules hcomes hhost)
      rw [Passes, hrules] at hgoes
      exact hgoes.2
  · intro h
    refine ⟨fun env v s hshare hlist hgoes => h.mp ?_, fun env v s hshare hlist hcomes hhost => ?_⟩
    · have hgoes : GoesOn env v s := by
        rcases hgoes with hgoes | ⟨c, hc, hgrant⟩
        · exact hgoes
        · exact goesOn_of_grantOrMount hshare hc hgrant
      have hpasses := ((goesOn_iff hshare).mp hgoes).2
      rw [hlist] at hpasses
      exact hpasses
    · refine (goesOn_iff hshare).mpr ⟨hcomes, ?_⟩
      rw [hlist]
      exact h.mpr hhost

theorem or_iff_or_left {P E S : Prop} : ((P ∨ S) ↔ (P ∨ E)) ↔ P ∨ (E ↔ S) := by
  tauto

/-- The shares that the check is right about: some rule is plainly wide, or there is an exposed one exactly when
there is one that is spelled out. -/
theorem guarded_iff (share : String) (list : AccessList share) : Guarded share list.rules ↔
    (∃ r ∈ list.rules, r.PlainlyWide) ∨
      ((∃ r ∈ list.rules, r.Exposed) ↔ ∃ r ∈ list.rules, r.SpelledOut) := by
  have hwide : (¬ ∀ r ∈ list.rules, r.wide = false) ↔
      (∃ r ∈ list.rules, r.PlainlyWide) ∨ ∃ r ∈ list.rules, r.SpelledOut := by
    rw [← exists_or]
    simp only [not_forall, exists_prop]
    refine exists_congr fun r => ?_
    rw [← and_or_left]
    exact and_congr_right fun hr => by rw [Bool.not_eq_false, wide_iff (list.network r hr)]
  have hhost : (¬ ∀ r ∈ list.rules, r.Host) ↔
      (∃ r ∈ list.rules, r.PlainlyWide) ∨ ∃ r ∈ list.rules, r.Exposed := by
    rw [← exists_or]
    simp only [not_forall, exists_prop]
    refine exists_congr fun r => ?_
    rw [← and_or_left]
    exact and_congr_right fun hr => not_host_iff (list.network r hr)
  rw [guarded_iff_wide, ← or_iff_or_left, ← hwide, ← hhost, not_iff_not]

def exposedRule : Rule := ⟨0, "s", "ip", "2001:db8::/32"⟩

theorem exposedRule_exposed : exposedRule.Exposed := by
  have hfamily : (parse exposedRule.accessTo).map (fun n => n.family) = some .v6 := by decide
  obtain ⟨n, hn, hv6⟩ := Option.map_eq_some_iff.mp hfamily
  exact ⟨rfl, n, hn, hv6, by decide⟩

theorem exposedRule_not_wide : exposedRule.wide = false := by
  obtain ⟨-, n, hn, -, hlength⟩ := exposedRule_exposed
  rcases cases_of_parse rfl hn with ⟨-, -, hwide⟩ | ⟨length, hlength', -, hwide⟩
  · exact hwide
  · rw [hlength] at hlength'
    exact Bool.eq_false_iff.mpr fun h => hwide.mp h (Option.some.inj hlength').symm

/-- A share that an IPv6 network of the prefix length 32 is let into is mounted. -/
theorem not_guarded : ¬ ∀ (share : String) (list : AccessList share), Guarded share list.rules := by
  intro h
  have hguarded := h "s" ⟨[exposedRule], by decide, by decide⟩
  have hhost := ((guarded_iff_wide "s" _).mp hguarded).mp
    (fun r hr => by rw [List.mem_singleton.mp hr]; exact exposedRule_not_wide) exposedRule (List.mem_singleton_self _)
  exact (not_host_iff fun _ => by decide).mpr (.inr exposedRule_exposed) hhost

end Volume

end Zun
