import Mathlib.Algebra.Ring.Nat
import Mathlib.Data.List.Count
import Mathlib.Data.List.Nodup
import Mathlib.Logic.Function.Basic
import Zun.Effect.Run

/-!
# Console tokens

`validate_connection`, `_claim` and `new_websocket_client` of `zun/websocket/websocketproxy.py`,
`unwrap` of `zun/websocket/console_token.py` and `consume_console_token` of
`zun/db/sqlalchemy/api.py`, with the checking of signed tokens turned on.

A connection presents a signed token in its query.  Before the upgrade the token is decoded, the
bare token in it is compared with the row of its container, and the row is cleared.  After the
upgrade the query is read a second time, and the handler of the session compares the bare token
with the row as it was read before.  The first reading of a parameter takes its first value, the
second its last.

A streamed exec is another kind of session, which keeps nothing in the database; it ends here
where its stream begins.
-/

namespace Zun

open Effect

namespace Console

/-! ## Queries -/

/-- The kinds of sessions. -/
inductive Kind where
  | attach | exec | logs | stream
deriving DecidableEq

/-- The parameters of a query in their order. -/
abbrev Query := List (String × String)

/-- `parse_qs`: the values of a parameter.  Blank ones are left out. -/
def values (q : Query) (name : String) : List String :=
  (q.filter fun x => x.1 = name ∧ x.2 ≠ "").map (·.2)

/-- `query.get(name, [''])[0]`. -/
def first (q : Query) (name : String) : String := (values q name).headD ""

/-- `parse_qs(query).get(name, [""]).pop()`. -/
def last (q : Query) (name : String) : String := (values q name).getLastD ""

/-- `_session_kind`. -/
def sessionKind (q : Query) : Kind :=
  if first q "stream" = "exec" then .stream
  else if first q "exec_id" ≠ "" then .exec
  else if first q "stream" = "logs" then .logs
  else .attach

/-- `exec_id or None`. -/
def orNone (execId : String) : Option String := if execId = "" then none else some execId

/-! ## Signed tokens -/

/-- What a signed token says. -/
structure Claims where
  sub : String
  knd : Kind
  tok : String
  eid : Option String := none
  exp : Nat
deriving DecidableEq

/-- `LEEWAY`. -/
def leeway : Nat := 5

/-- The library that decodes tokens, with what the API has signed. -/
structure Jwt where
  /-- `jwt.decode` at a time. -/
  decode : Nat → String → Option Claims
  /-- The token was signed by the API with these claims. -/
  Signed : String → Claims → Prop
  /-- `is_uuid_like`. -/
  uuidLike : String → Bool
  /-- Only what was signed is decoded, and only until it expires. -/
  sound : ∀ now t c, decode now t = some c → Signed t c ∧ now < c.exp + leeway
  /-- `wrap` is given the uuid of a record. -/
  subject : ∀ t c, Signed t c → uuidLike c.sub = true

variable (jwt : Jwt)

/-- `unwrap`, with the claims of the bare token that it returns. -/
def unwrap (now : Nat) (kind : Kind) (uuid token execId : String) : Option Claims :=
  match jwt.decode now token with
  | none => none
  | some c => if c.sub ≠ uuid ∨ c.knd ≠ kind ∨ c.eid ≠ orNone execId then none else some c

/-! ## Rows -/

structure Exec where
  execId : String
  token : Option String
  url : Option String := none
deriving DecidableEq

/-- The classes of records that a session is looked up in. -/
inductive Cls where
  | container | capsuleContainer | capsuleInitContainer
deriving DecidableEq

structure Container where
  uuid : String
  name : String := ""
  cls : Cls := .container
  websocketToken : Option String := none
  websocketUrl : Option String := none
  logsToken : Option String := none
  logsUrl : Option String := none
  execs : List Exec := []
deriving DecidableEq

/-- The tokens of a session of the container. -/
def Container.held (c : Container) (kind : Kind) (execId : Option String) : List (Option String) :=
  match kind with
  | .exec => (c.execs.filter fun e => execId = some e.execId).map (·.token)
  | .logs => [c.logsToken]
  | .attach | .stream => [c.websocketToken]

def findByName (rows : List Container) (name : String) : List Cls → Option Container
  | [] => none
  | cls :: rest =>
      match rows.filter fun c => c.cls = cls ∧ c.name = name with
      | [] => findByName rows name rest
      | [c] => some c
      | _ => none

def findByUuid (rows : List Container) (uuid : String) : List Cls → Option Container
  | [] => none
  | cls :: rest =>
      match rows.find? fun c => c.cls = cls ∧ c.uuid = uuid with
      | none => findByUuid rows uuid rest
      | some c => some c

/-- `_find_container`. -/
def findContainer (rows : List Container) (uuid : String) : Option Container :=
  let classes := [.container, .capsuleContainer, .capsuleInitContainer]
  if jwt.uuidLike uuid then findByUuid rows uuid classes else findByName rows uuid classes

/-- `SET token = NULL WHERE token = t` on one column. -/
def clear (t : String) (o : Option String) : Option String := if o = some t then none else o

/-- The statement on the rows of one container. -/
def Container.consume (c : Container) (kind : Kind) (t : String) (execId : Option String) : Container :=
  match kind with
  | .exec => { c with execs := c.execs.map fun e =>
      if execId = some e.execId then { e with token := clear t e.token } else e }
  | .logs => { c with logsToken := clear t c.logsToken }
  | .attach | .stream => { c with websocketToken := clear t c.websocketToken }

/-- How many rows of one container it changes. -/
def Container.matched (c : Container) (kind : Kind) (t : String) (execId : Option String) : Nat :=
  (c.held kind execId).count (some t)

/-- `consume_console_token`: the rows after it, and whether it changed one row. -/
def consumeConsoleToken (rows : List Container) (uuid : String) (kind : Kind) (t : String)
    (execId : Option String) : List Container × Bool :=
  if t = "" then (rows, false)
  else
    (rows.map fun c => if c.uuid = uuid then c.consume kind t execId else c,
      ((rows.map fun c => if c.uuid = uuid then c.matched kind t execId else 0).sum == 1))

/-! ## Connections -/

/-- What was found out about a connection: when its token was decoded, the claims of the token,
and the row of its container as it was read then. -/
structure Session where
  now : Nat
  claims : Claims
  container : Container
deriving DecidableEq

inductive Phase where
  | arrived
  /-- The token is that of the row, which is not cleared yet. -/
  | claimed (x : Session)
  | upgraded (x : Session)
  /-- The connection is relayed to the stream of a session. -/
  | relayed (x : Session) (kind : Kind) (execId : Option String)
  | closed
deriving DecidableEq

structure Conn where
  query : Query
  phase : Phase := .arrived
deriving DecidableEq

structure State where
  rows : List Container
  conns : Nat → Option Conn := fun _ => none
  /-- The connections that were upgraded, with their bare tokens, newest first. -/
  upgrades : List (Nat × String) := []

def State.setConn (s : State) (i : Nat) (c : Conn) : State :=
  { s with conns := Function.update s.conns i (some c) }

/-- `validate_connection` up to the comparison with the row.  `ok` is false when the origin is not
allowed or the database does not answer. -/
def validateConnection (s : State) (q : Query) (now : Nat) (ok : Bool) : Phase :=
  let kind := sessionKind q
  let execId := first q "exec_id"
  if kind = .stream ∨ ok = false then .closed
  else
    match unwrap jwt now kind (first q "uuid") (first q "token") execId with
    | none => .closed
    | some claims =>
        match findContainer jwt s.rows (first q "uuid") with
        | none => .closed
        | some c =>
            if some claims.tok ∈ c.held kind (orNone execId) then .claimed ⟨now, claims, c⟩
            else .closed

/-- `new_websocket_client` up to the relay.  `execs` is what `exec_instances` is when it is read. -/
def newWebsocketClient (q : Query) (x : Session) (execs : List Exec) (ok : Bool) : Phase :=
  let execId := last q "exec_id"
  let token := some x.claims.tok
  let relay (kind : Kind) (execId url : Option String) : Phase :=
    if ok ∧ url.isSome then .relayed x kind execId else .closed
  if execId ≠ "" then
    match (execs.filter fun e => e.token = token ∧ e.execId = execId).getLast? with
    | none => .closed
    | some e => relay .exec (some execId) e.url
  else if last q "stream" = "logs" then
    if token = x.container.logsToken then relay .logs none x.container.logsUrl else .closed
  else
    if token = x.container.websocketToken then relay .attach none x.container.websocketUrl else .closed

/-- `exec_instances` of a container: read with the container for a session of an exec, and when it
is asked for otherwise. -/
def execInstances (s : State) (q : Query) (x : Session) : List Exec :=
  if sessionKind q = .exec then x.container.execs
  else ((s.rows.find? (·.uuid = x.container.uuid)).map (·.execs)).getD []

/-- The next step of a connection. -/
def go (s : State) (i : Nat) (now : Nat) (ok : Bool) : State :=
  match s.conns i with
  | none => s
  | some ⟨q, .arrived⟩ => s.setConn i ⟨q, validateConnection jwt s q now ok⟩
  | some ⟨q, .claimed x⟩ =>
      match consumeConsoleToken s.rows x.container.uuid (sessionKind q) x.claims.tok
          (orNone (first q "exec_id")) with
      | (rows, true) =>
          { s with rows, upgrades := (i, x.claims.tok) :: s.upgrades }.setConn i ⟨q, .upgraded x⟩
      | (rows, false) => { s with rows }.setConn i ⟨q, .closed⟩
  | some ⟨q, .upgraded x⟩ => s.setConn i ⟨q, newWebsocketClient q x (execInstances s q x) ok⟩
  | some ⟨_, .relayed ..⟩ => s
  | some ⟨_, .closed⟩ => s

inductive Event where
  | connect (i : Nat) (q : Query)
  | go (i : Nat) (now : Nat) (ok : Bool)
  /-- The manager opens a session, with a token of its own making. -/
  | issue (uuid : String) (kind : Kind) (token : String) (execId url : Option String)
deriving DecidableEq

/-- A new session on the row of a container. -/
def Container.issue (c : Container) (kind : Kind) (token : String) (execId url : Option String) :
    Container :=
  match kind with
  | .exec => { c with execs := { execId := execId.getD "", token := some token, url } :: c.execs }
  | .logs => { c with logsToken := some token, logsUrl := url }
  | .attach | .stream => { c with websocketToken := some token, websocketUrl := url }

def step : Event → State → State
  | .connect i q, s => s.setConn i { query := q }
  | .go i now ok, s => go jwt s i now ok
  | .issue uuid kind token execId url, s =>
      match s.rows.find? (·.uuid = uuid) with
      | none => s
      | some c => { s with rows := c.issue kind token execId url :: s.rows.erase c }

/-! ## One session, of the kind the token was made for -/

/-- Where tokens stand on the rows of a container. -/
def Container.places (c : Container) : List (Option String) :=
  c.websocketToken :: c.logsToken :: c.execs.map (·.token)

/-- How often a token stands on the rows. -/
def standing (rows : List Container) (t : String) : Nat :=
  (rows.flatMap Container.places).count (some t)

/-- A connection comes with a number of its own, and a token that is made was never made before. -/
def Possible : Event → State → Prop
  | .connect i _, s => s.conns i = none
  | .issue _ _ token _ _, s => standing s.rows token = 0 ∧ token ∉ s.upgrades.map (·.2)
  | .go _ _ _, _ => True

/-- No connection has come yet. -/
structure Started (s : State) : Prop where
  conns : ∀ i, s.conns i = none
  upgrades : s.upgrades = []

/-- The token that was presented was signed for this session and had not expired, and its bare
token was the one on the row. -/
structure Genuine (q : Query) (x : Session) (kind : Kind) (execId : Option String) : Prop where
  signed : jwt.Signed (first q "token") x.claims
  unexpired : x.now < x.claims.exp + leeway
  sub : x.claims.sub = x.container.uuid
  knd : x.claims.knd = kind
  eid : x.claims.eid = execId
  held : some x.claims.tok ∈ x.container.held kind execId

/-- Every connection that is relayed has a genuine token, and no bare token has opened two. -/
structure OneSession (s : State) : Prop where
  genuine : ∀ i q x kind execId, s.conns i = some ⟨q, .relayed x kind execId⟩ →
    Genuine jwt q x kind execId
  once : (s.upgrades.map (·.2)).Nodup

/-! ### What the statement does to the rows -/

section Rows

variable {c : Container} {rows : List Container} {kind : Kind} {t x : String} {execId : Option String}

/-- A column loses the token, and no other. -/
theorem count_clear (t x : String) (o : Option String) :
    [clear t o].count (some x) + (if x = t then [o].count (some t) else 0) = [o].count (some x) := by
  unfold clear
  by_cases hx : x = t
  · subst hx
    by_cases ho : o = some x <;> simp [ho]
  · by_cases ho : o = some t
    · subst ho
      simp [hx, Ne.symm hx]
    · simp [hx, ho]

theorem count_consume_execs (t x : String) (execId : Option String) (execs : List Exec) :
    ((execs.map fun e => if execId = some e.execId then { e with token := clear t e.token } else e).map
        (·.token)).count (some x)
      + (if x = t then ((execs.filter fun e => execId = some e.execId).map (·.token)).count (some t) else 0)
      = (execs.map (·.token)).count (some x) := by
  induction execs with
  | nil => simp
  | cons e execs ih =>
      have hone := count_clear t x e.token
      by_cases he : execId = some e.execId
      · by_cases hx : x = t
        · simp only [hx, if_true, List.map_cons, he, List.count_cons, List.count_nil,
            List.filter_cons, decide_true] at hone ih ⊢
          omega
        · simp only [hx, if_false, List.map_cons, he, if_true, List.count_cons, List.count_nil] at hone ih ⊢
          omega
      · simp only [List.map_cons, he, if_false, List.count_cons, List.filter_cons, decide_false,
          Bool.false_eq_true] at ih ⊢
        omega

theorem count_consume (c : Container) (kind : Kind) (t x : String) (execId : Option String) :
    (c.consume kind t execId).places.count (some x) + (if x = t then c.matched kind t execId else 0)
      = c.places.count (some x) := by
  have hws := count_clear t x c.websocketToken
  have hlogs := count_clear t x c.logsToken
  have hexecs := count_consume_execs t x execId c.execs
  simp only [List.count_cons, List.count_nil] at hws hlogs
  cases kind with
  | attach =>
      simp only [Container.consume, Container.places, Container.matched, Container.held,
        List.count_cons, List.count_nil]
      omega
  | stream =>
      simp only [Container.consume, Container.places, Container.matched, Container.held,
        List.count_cons, List.count_nil]
      omega
  | logs =>
      simp only [Container.consume, Container.places, Container.matched, Container.held,
        List.count_cons, List.count_nil]
      omega
  | exec =>
      simp only [Container.consume, Container.places, Container.matched, Container.held,
        List.count_cons]
      omega

/-- The statement takes the token off as many places as it matches, and no other token off any. -/
theorem standing_consume (rows : List Container) (uuid : String) (kind : Kind) (t x : String)
    (execId : Option String) :
    standing (rows.map fun c => if c.uuid = uuid then c.consume kind t execId else c) x
      + (if x = t then
          (rows.map fun c => if c.uuid = uuid then c.matched kind t execId else 0).sum else 0)
      = standing rows x := by
  induction rows with
  | nil => simp [standing]
  | cons c rows ih =>
      have hone := count_consume c kind t x execId
      unfold standing at ih ⊢
      by_cases hc : c.uuid = uuid
      · simp only [List.map_cons, hc, if_true, List.flatMap_cons, List.count_append, List.sum_cons]
        by_cases hx : x = t
        · simp only [hx, if_true] at hone ih ⊢
          omega
        · simp only [hx, if_false] at hone ih ⊢
          omega
      · simp only [List.map_cons, hc, if_false, List.flatMap_cons, List.count_append, List.sum_cons,
          Nat.zero_add]
        omega

/-- The rows have no token more than they had. -/
theorem standing_consumeConsoleToken_le (rows : List Container) (uuid : String) (kind : Kind)
    (t : String) (execId : Option String) (x : String) :
    standing (consumeConsoleToken rows uuid kind t execId).1 x ≤ standing rows x := by
  unfold consumeConsoleToken
  split
  · exact Nat.le_refl _
  · have h := standing_consume rows uuid kind t x execId
    simp only
    omega

/-- A token that was used up stood on the rows, and stands there once less. -/
theorem standing_of_consumed {uuid : String}
    (h : (consumeConsoleToken rows uuid kind t execId).2 = true) :
    standing (consumeConsoleToken rows uuid kind t execId).1 t + 1 = standing rows t := by
  unfold consumeConsoleToken at h ⊢
  split
  case isTrue ht => simp [ht] at h
  case isFalse ht =>
    rw [if_neg ht] at h
    have hsum := standing_consume rows uuid kind t t execId
    simp only [beq_iff_eq] at h
    rw [if_pos rfl, h] at hsum
    exact hsum

theorem standing_of_mem (hc : c ∈ rows) (x : String) :
    standing rows x = c.places.count (some x) + standing (rows.erase c) x := by
  unfold standing
  rw [((List.perm_cons_erase hc).flatMap_right Container.places).count_eq, List.flatMap_cons,
    List.count_append]

/-- A new session adds its token, once. -/
theorem count_issue (c : Container) (kind : Kind) (t : String) (execId url : Option String) (x : String) :
    (c.issue kind t execId url).places.count (some x)
      ≤ c.places.count (some x) + (if x = t then 1 else 0) := by
  have hone : [some t].count (some x) = if x = t then 1 else 0 := by
    by_cases hx : x = t
    · simp [hx]
    · simp [hx, Ne.symm hx]
  simp only [List.count_cons, List.count_nil] at hone
  cases kind with
  | attach | logs | stream | exec =>
      simp only [Container.issue, Container.places, List.count_cons, List.map_cons]
      omega

theorem standing_issue (hc : c ∈ rows) (kind : Kind) (t : String) (execId url : Option String)
    (x : String) : standing (c.issue kind t execId url :: rows.erase c) x
      ≤ standing rows x + (if x = t then 1 else 0) := by
  have hnew := count_issue c kind t execId url x
  rw [standing_of_mem hc]
  unfold standing
  rw [List.flatMap_cons, List.count_append]
  omega

end Rows

/-! ### What the two readings of a query have in common -/

theorem ne_of_mem_values {q : Query} {name v : String} (h : v ∈ values q name) : v ≠ "" := by
  obtain ⟨x, hx, rfl⟩ := List.mem_map.mp h
  have hboth := (List.mem_filter.mp hx).2
  simp only [decide_eq_true_eq] at hboth
  exact hboth.2

theorem first_eq_blank {q : Query} {name : String} : first q name = "" ↔ values q name = [] := by
  unfold first
  cases hv : values q name with
  | nil => simp
  | cons v vs =>
      have hne : v ≠ "" := ne_of_mem_values (hv ▸ List.mem_cons_self ..)
      simp [hne]

theorem last_eq_blank {q : Query} {name : String} : last q name = "" ↔ values q name = [] := by
  unfold last
  cases hv : values q name with
  | nil => simp
  | cons v vs =>
      rw [← hv, List.getLastD_eq_getLast?, List.getLast?_eq_some_getLast (by simp [hv])]
      have hne := ne_of_mem_values (List.getLast_mem (l := values q name) (by simp [hv]))
      simp [hv] at hne ⊢
      exact hne

/-- A session of an exec is one by either reading. -/
theorem sessionKind_exec {q : Query} (hstream : sessionKind q ≠ .stream) :
    sessionKind q = .exec ↔ last q "exec_id" ≠ "" := by
  have hsame : first q "exec_id" = "" ↔ last q "exec_id" = "" := first_eq_blank.trans last_eq_blank.symm
  unfold sessionKind at hstream ⊢
  split at hstream
  · exact absurd rfl hstream
  · by_cases hexec : first q "exec_id" = ""
    · have hlast := hsame.mp hexec
      by_cases hlogs : first q "stream" = "logs" <;> simp [*]
    · have hlast := mt hsame.mpr hexec
      simp [*]

/-! ### The invariant -/

/-- The comparisons before the upgrade have been made. -/
structure Vetted (q : Query) (x : Session) : Prop
    extends Genuine jwt q x (sessionKind q) (orNone (first q "exec_id")) where
  kept : sessionKind q ≠ .stream
  distinct : ∀ t, x.container.places.count (some t) ≤ 1

variable {jwt}

/-- Two items of a list with the same value, where the value is there once, are one. -/
theorem eq_of_count_map_le_one {α β : Type} [BEq β] [LawfulBEq β] {f : α → β} {l : List α} {y : β} {a b : α}
    (h : (l.map f).count y ≤ 1) (ha : a ∈ l) (hb : b ∈ l) (hfa : f a = y) (hfb : f b = y) : a = b := by
  induction l with
  | nil => cases ha
  | cons z l ih =>
      have hmem {w : α} (hw : w ∈ l) (hfw : f w = y) : 0 < (l.map f).count y :=
        List.count_pos_iff.mpr (List.mem_map.mpr ⟨w, hw, hfw⟩)
      rw [List.map_cons, List.count_cons] at h
      rcases List.mem_cons.mp ha with rfl | ha'
      · rcases List.mem_cons.mp hb with rfl | hb'
        · rfl
        · have hpos := hmem hb' hfb
          simp only [hfa, beq_self_eq_true, if_true] at h
          omega
      · rcases List.mem_cons.mp hb with rfl | hb'
        · have hpos := hmem ha' hfa
          simp only [hfb, beq_self_eq_true, if_true] at h
          omega
        · exact ih (Nat.le_trans (Nat.le_add_right _ _) h) ha' hb'

theorem Vetted.execId {q : Query} {x : Session} {e : Exec} (h : Vetted jwt q x)
    (hkind : sessionKind q = .exec) (he : e ∈ x.container.execs) (htok : e.token = some x.claims.tok) :
    orNone (first q "exec_id") = some e.execId := by
  have hheld := h.held
  rw [hkind] at hheld
  obtain ⟨e', he', htok'⟩ := List.mem_map.mp hheld
  obtain ⟨hmem, hid⟩ := List.mem_filter.mp he'
  have hcount : (x.container.execs.map (·.token)).count (some x.claims.tok) ≤ 1 := by
    have hall := h.distinct x.claims.tok
    unfold Container.places at hall
    rw [List.count_cons, List.count_cons] at hall
    omega
  have heq : e' = e := eq_of_count_map_le_one hcount hmem he htok' htok
  subst heq
  simpa using hid

/-- The token of a container stands in its attach column or in its logs column, and not in
both. -/
theorem Vetted.not_both {q : Query} {x : Session} (h : Vetted jwt q x)
    (hws : some x.claims.tok = x.container.websocketToken)
    (hlogs : some x.claims.tok = x.container.logsToken) : False := by
  have hall := h.distinct x.claims.tok
  unfold Container.places at hall
  rw [List.count_cons, List.count_cons, ← hws, ← hlogs] at hall
  simp only [beq_self_eq_true, if_true] at hall
  omega

/-- The session that is opened is the one the token was made for. -/
theorem Vetted.genuine {q : Query} {x y : Session} {execs : List Exec} {ok : Bool} {kind : Kind}
    {execId : Option String} (h : Vetted jwt q x)
    (hexecs : sessionKind q = .exec → execs = x.container.execs)
    (hrelay : newWebsocketClient q x execs ok = .relayed y kind execId) :
    Genuine jwt q y kind execId := by
  have hkind := sessionKind_exec h.kept
  unfold newWebsocketClient at hrelay
  simp only at hrelay
  split at hrelay
  case isTrue hlast =>
    have hexec := hkind.mpr hlast
    split at hrelay
    · cases hrelay
    case h_2 e he =>
      split at hrelay
      case isFalse => cases hrelay
      case isTrue =>
        cases hrelay
        obtain ⟨hmem, hboth⟩ := List.mem_filter.mp (List.mem_of_getLast? he)
        simp only [decide_eq_true_eq] at hboth
        rw [hexecs hexec] at hmem
        have hid := h.execId hexec hmem hboth.1
        rw [hboth.2] at hid
        rw [← hid, ← hexec]
        exact h.toGenuine
  case isFalse hlast =>
    have hnot : sessionKind q ≠ .exec := mt hkind.mp hlast
    have hnone : orNone (first q "exec_id") = none := by
      have hblank : first q "exec_id" = "" :=
        first_eq_blank.mpr (last_eq_blank.mp (not_not.mp hlast))
      rw [hblank]
      rfl
    have hgenuine := h.toGenuine
    rw [hnone] at hgenuine
    -- What is left is an attach or the logs, and the token stands in one of the two columns.
    split at hrelay
    · split at hrelay
      case isFalse => cases hrelay
      case isTrue hlogs =>
        split at hrelay
        case isFalse => cases hrelay
        case isTrue =>
          cases hrelay
          cases hk : sessionKind q with
          | logs => exact hk ▸ hgenuine
          | exec => exact absurd hk hnot
          | stream => exact absurd hk h.kept
          | attach =>
              rw [hk] at hgenuine
              exact (h.not_both (List.mem_singleton.mp hgenuine.held) hlogs).elim
    · split at hrelay
      case isFalse => cases hrelay
      case isTrue hws =>
        split at hrelay
        case isFalse => cases hrelay
        case isTrue =>
          cases hrelay
          cases hk : sessionKind q with
          | attach => exact hk ▸ hgenuine
          | exec => exact absurd hk hnot
          | stream => exact absurd hk h.kept
          | logs =>
              rw [hk] at hgenuine
              exact (h.not_both hws (List.mem_singleton.mp hgenuine.held)).elim

theorem findByUuid_spec {rows : List Container} {uuid : String} {c : Container} (classes : List Cls)
    (h : findByUuid rows uuid classes = some c) : c ∈ rows ∧ c.uuid = uuid := by
  induction classes with
  | nil => cases h
  | cons cls classes ih =>
      unfold findByUuid at h
      split at h
      · exact ih h
      case h_2 c' hfind =>
        cases h
        have hboth := List.find?_some hfind
        simp only [decide_eq_true_eq] at hboth
        exact ⟨List.mem_of_find?_eq_some hfind, hboth.2⟩

/-- A connection whose token is that of a row has passed every comparison. -/
theorem vetted_of_claimed {s : State} {q : Query} {now : Nat} {ok : Bool} {x : Session}
    (hdistinct : ∀ t, standing s.rows t ≤ 1)
    (h : validateConnection jwt s q now ok = .claimed x) : Vetted jwt q x := by
  unfold validateConnection at h
  simp only at h
  split at h
  · cases h
  case isFalse hgo =>
    rw [not_or] at hgo
    split at h
    · cases h
    case h_2 claims hclaims =>
      split at h
      · cases h
      case h_2 c hc =>
        split at h
        case isFalse => cases h
        case isTrue hheld =>
          cases h
          unfold unwrap at hclaims
          split at hclaims
          · cases hclaims
          case h_2 claims' hdecode =>
            split at hclaims
            · cases hclaims
            case isFalse hfor =>
              cases hclaims
              simp only [not_or, not_not] at hfor
              obtain ⟨hsub, hknd, heid⟩ := hfor
              obtain ⟨hsigned, hexp⟩ := jwt.sound now _ claims hdecode
              -- The API signs for uuids, so the record was looked up by its uuid.
              have huuid := jwt.subject _ claims hsigned
              rw [hsub] at huuid
              unfold findContainer at hc
              simp only [huuid, if_true] at hc
              obtain ⟨hmem, hcu⟩ := findByUuid_spec _ hc
              refine ⟨⟨hsigned, hexp, hsub.trans hcu.symm, hknd, heid, hheld⟩, hgo.1, fun t => ?_⟩
              have hall := hdistinct t
              rw [standing_of_mem hmem] at hall
              exact Nat.le_trans (Nat.le_add_right _ _) hall

/-- What is known of a connection in each of its phases. -/
def Conn.Checked (jwt : Jwt) (c : Conn) : Prop :=
  match c.phase with
  | .arrived | .closed => True
  | .claimed x | .upgraded x => Vetted jwt c.query x
  | .relayed x kind execId => Genuine jwt c.query x kind execId

/-- No token stands in two places, and none that has opened a session stands anywhere. -/
structure Inv (jwt : Jwt) (s : State) : Prop where
  distinct : ∀ t, standing s.rows t ≤ 1
  spent : ∀ t ∈ s.upgrades.map (·.2), standing s.rows t = 0
  once : (s.upgrades.map (·.2)).Nodup
  checked : ∀ i c, s.conns i = some c → c.Checked jwt

section Runs

variable {s : State} {i : Nat}

theorem setConn_self (c : Conn) : (s.setConn i c).conns i = some c := Function.update_self ..

theorem setConn_of_ne {j : Nat} (h : j ≠ i) (c : Conn) : (s.setConn i c).conns j = s.conns j :=
  Function.update_of_ne h ..

theorem Inv.setConn {c : Conn} (h : Inv jwt s) (hc : c.Checked jwt) : Inv jwt (s.setConn i c) := by
  refine ⟨h.distinct, h.spent, h.once, fun j c' hj => ?_⟩
  by_cases hji : j = i
  · subst hji
    rw [setConn_self] at hj
    cases hj
    exact hc
  · rw [setConn_of_ne hji] at hj
    exact h.checked j c' hj

/-- The rows lose tokens only. -/
theorem Inv.setRows {rows : List Container} (h : Inv jwt s)
    (hrows : ∀ t, standing rows t ≤ standing s.rows t) : Inv jwt { s with rows } := by
  refine ⟨fun t => Nat.le_trans (hrows t) (h.distinct t), fun t ht => ?_, h.once, h.checked⟩
  have hle := hrows t
  rw [h.spent t ht] at hle
  exact Nat.le_zero.mp hle

theorem Inv.upgrade {rows : List Container} {t : String} (h : Inv jwt s)
    (hrows : ∀ t, standing rows t ≤ standing s.rows t)
    (hspent : standing rows t + 1 = standing s.rows t) :
    Inv jwt { s with rows, upgrades := (i, t) :: s.upgrades } := by
  have hlost := h.setRows hrows
  have hone := h.distinct t
  refine ⟨hlost.distinct, fun t' ht' => ?_, ?_, h.checked⟩
  · rcases List.mem_cons.mp ht' with rfl | hold
    · show standing rows _ = 0
      simp only at *
      omega
    · exact hlost.spent t' hold
  · refine List.nodup_cons.mpr ⟨fun hmem => ?_, h.once⟩
    have hzero := h.spent t hmem
    omega

/-- A connection that comes in is let through to the row, or turned away. -/
theorem validateConnection_cases (jwt : Jwt) (s : State) (q : Query) (now : Nat) (ok : Bool) :
    validateConnection jwt s q now ok = .closed ∨
      ∃ x, validateConnection jwt s q now ok = .claimed x := by
  unfold validateConnection
  simp only
  split
  · exact .inl rfl
  split
  · exact .inl rfl
  split
  · exact .inl rfl
  split
  · exact .inr ⟨_, rfl⟩
  · exact .inl rfl

theorem checked_validateConnection (h : ∀ t, standing s.rows t ≤ 1) (q : Query) (now : Nat) (ok : Bool) :
    Conn.Checked jwt ⟨q, validateConnection jwt s q now ok⟩ := by
  rcases validateConnection_cases jwt s q now ok with hclosed | ⟨x, hx⟩
  · rw [hclosed]
    trivial
  · have hvetted := vetted_of_claimed h hx
    rw [hx]
    exact hvetted

theorem newWebsocketClient_cases (q : Query) (x : Session) (execs : List Exec) (ok : Bool) :
    newWebsocketClient q x execs ok = .closed ∨
      ∃ kind execId, newWebsocketClient q x execs ok = .relayed x kind execId := by
  have hrelay (kind : Kind) (execId url : Option String) :
      (if ok ∧ url.isSome then Phase.relayed x kind execId else .closed) = .closed ∨
        ∃ kind' execId', (if ok ∧ url.isSome then Phase.relayed x kind execId else .closed)
          = .relayed x kind' execId' := by
    split
    · exact .inr ⟨kind, execId, rfl⟩
    · exact .inl rfl
  unfold newWebsocketClient
  simp only
  split
  · split
    · exact .inl rfl
    · exact hrelay ..
  · split
    · split
      · exact hrelay ..
      · exact .inl rfl
    · split
      · exact hrelay ..
      · exact .inl rfl

theorem checked_newWebsocketClient {q : Query} {x : Session} {execs : List Exec} (ok : Bool)
    (h : Vetted jwt q x) (hexecs : sessionKind q = .exec → execs = x.container.execs) :
    Conn.Checked jwt ⟨q, newWebsocketClient q x execs ok⟩ := by
  rcases newWebsocketClient_cases q x execs ok with hclosed | ⟨kind, execId, hx⟩
  · rw [hclosed]
    trivial
  · have hgenuine := h.genuine hexecs hx
    rw [hx]
    exact hgenuine

theorem inv_go (h : Inv jwt s) (now : Nat) (ok : Bool) : Inv jwt (go jwt s i now ok) := by
  unfold go
  split
  · exact h
  · exact h.setConn (checked_validateConnection h.distinct _ now ok)
  case h_3 q x hi =>
    have hvetted : Vetted jwt q x := h.checked i _ hi
    have hle := standing_consumeConsoleToken_le s.rows x.container.uuid (sessionKind q) x.claims.tok
      (orNone (first q "exec_id"))
    split
    case h_1 rows hrows =>
      have hspent := standing_of_consumed (Prod.ext_iff.mp hrows).2
      rw [hrows] at hle hspent
      exact (h.upgrade hle hspent).setConn hvetted
    case h_2 rows hrows =>
      rw [hrows] at hle
      exact (h.setRows hle).setConn trivial
  case h_4 q x hi =>
    have hvetted : Vetted jwt q x := h.checked i _ hi
    refine h.setConn (checked_newWebsocketClient ok hvetted fun hexec => ?_)
    unfold execInstances
    rw [if_pos hexec]
  · exact h
  · exact h

/-- A token that was never made before stands in one place then. -/
theorem inv_issue {uuid token : String} {kind : Kind} {execId url : Option String} (h : Inv jwt s)
    (hfresh : Possible (.issue uuid kind token execId url) s) :
    Inv jwt (step jwt (.issue uuid kind token execId url) s) := by
  simp only [step]
  split
  · exact h
  case h_2 c hc =>
    have hissue := standing_issue (List.mem_of_find?_eq_some hc) kind token execId url
    refine ⟨fun t => Nat.le_trans (hissue t) ?_, fun t ht => Nat.le_zero.mp (Nat.le_trans (hissue t) ?_),
      h.once, h.checked⟩
    · by_cases ht : t = token
      · exact Nat.le_of_eq (by rw [ht, hfresh.1, if_pos rfl])
      · rw [if_neg ht]
        exact h.distinct t
    · have hne : t ≠ token := by
        rintro rfl
        exact hfresh.2 ht
      exact Nat.le_of_eq (by rw [if_neg hne, h.spent t ht])

theorem inv_step (e : Event) (h : Inv jwt s) (hpossible : Possible e s) : Inv jwt (step jwt e s) := by
  cases e with
  | connect i q => exact h.setConn trivial
  | go i now ok => exact inv_go h now ok
  | issue uuid kind token execId url => exact inv_issue h hpossible

/-- In every run from rows on which no token stands twice, every connection that is relayed has a
genuine token of its session, and no token opens two. -/
theorem oneSession_of_distinct (jwt : Jwt) (s : State)
    (h : Reached (fun s => Started s ∧ ∀ t, standing s.rows t ≤ 1) (step jwt) Possible s) :
    OneSession jwt s := by
  have hinv : Inv jwt s := by
    refine h.invariant (fun s hs => ⟨hs.2, ?_, ?_, fun i c hi => ?_⟩) fun e s hok hs => inv_step e hs hok
    · rw [hs.1.upgrades]
      nofun
    · rw [hs.1.upgrades]
      exact List.nodup_nil
    · rw [hs.1.conns i] at hi
      cases hi
  exact ⟨fun i q x kind execId hi => hinv.checked i _ hi, hinv.once⟩

def aUuid : String := "7dd5a2b0-6c2c-4e3e-9f0e-1f6a3c0a9d11"

/-- The logs of the container, until a time. -/
def logsClaims : Claims := { sub := aUuid, knd := .logs, tok := "T", exp := 100 }

/-- An API that has signed one token. -/
def oneSigned : Jwt where
  decode now t := if t = "jwt" ∧ now < logsClaims.exp + leeway then some logsClaims else none
  Signed t c := t = "jwt" ∧ c = logsClaims
  uuidLike u := u.length = 36
  sound now t c h := by
    split at h
    case isTrue hboth =>
      cases h
      exact ⟨⟨hboth.1, rfl⟩, hboth.2⟩
    case isFalse => cases h
  subject t c h := by
    rw [h.2]
    decide

/-- The container, with a token for an attach and the one for its logs. -/
def oneRow (attach : String) : Container where
  uuid := aUuid
  websocketToken := some attach
  websocketUrl := some "ws://attach"
  logsToken := some "T"
  logsUrl := some "http://logs"

def oneContainer (attach : String) : State where
  rows := [oneRow attach]

/-- A connection that gives the kind of its session twice, from its arrival to its relay. -/
def conflicting (stream : String) : List Event :=
  [.connect 0 [("uuid", aUuid), ("token", "jwt"), ("stream", "logs"), ("stream", stream)],
   .go 0 10 true, .go 0 10 true, .go 0 10 true]

theorem oneSession_logs :
    OneSession oneSigned (steps (step oneSigned) (conflicting "logs") (oneContainer "A")) ∧
      ((steps (step oneSigned) (conflicting "logs") (oneContainer "A")).upgrades = [(0, "T")]) := by
  refine ⟨oneSession_of_distinct oneSigned _ (.steps (.init ⟨⟨fun _ => rfl, rfl⟩, fun t => ?_⟩)
    ⟨rfl, trivial, trivial, trivial, trivial⟩), by decide +kernel⟩
  have hne : ¬ ("A" = t ∧ "T" = t) := by
    rintro ⟨rfl, h⟩
    exact absurd h (by decide)
  simp only [standing, oneContainer, oneRow, List.flatMap_cons, List.flatMap_nil, List.append_nil,
    Container.places, List.map_nil, List.count_cons, List.count_nil, beq_iff_eq, Option.some.injEq]
  by_cases ha : "A" = t <;> by_cases ht : "T" = t <;> simp_all

/-- With one token for both sessions, the token of the logs opens the attach. -/
theorem logs_token_opens_attach :
    Reached Started (step oneSigned) Possible
        (steps (step oneSigned) (conflicting "tail") (oneContainer "T")) ∧
      ¬ OneSession oneSigned (steps (step oneSigned) (conflicting "tail") (oneContainer "T")) := by
  refine ⟨.steps (.init ⟨fun _ => rfl, rfl⟩) ⟨rfl, trivial, trivial, trivial, trivial⟩, fun h => ?_⟩
  have hconn : (steps (step oneSigned) (conflicting "tail") (oneContainer "T")).conns 0
      = some ⟨[("uuid", aUuid), ("token", "jwt"), ("stream", "logs"), ("stream", "tail")],
        .relayed ⟨10, logsClaims, oneRow "T"⟩ .attach none⟩ := by decide +kernel
  cases (h.genuine 0 _ _ _ _ hconn).knd

end Runs

end Console

end Zun
