import P2PShare.Client.Request

/-!
`TrackerClient::request`, call by call, over any list of endpoints.

* `Network`: which endpoints accept a connection, and the tracker that answers there; `Conn`: a
  connection to it, or one that is stale.
* `scan`, `attempt` and `request`: the inner loop, one round of the outer loop, and both rounds.
* `World.asks`: the tracker answers messages one after another.
* `request_one_live`: with one endpoint that accepts and answers, every request is answered, and
  the login before it where the connection had to be opened.
-/

namespace P2PShare

namespace Reconnect

/-- `TrackerEndpoint`. -/
structure TrackerEndpoint where
  ip : Str
  port : UInt16
deriving DecidableEq

/-- The status and the payload of a response. -/
abbrev Reply := UInt16 × Str

/-- A message on the connection with this number. -/
structure Message where
  conn : ℕ
  type : UInt16
  payload : Str
deriving DecidableEq

/-- The endpoints that accept a connection, and how the tracker there answers a message. -/
structure Network (τ : Type) where
  accepts : TrackerEndpoint → Bool
  answer : τ → Message → Reply × τ

/-- A connection: to the tracker, with the answers that have not been read, or stale. On a stale
one `send_msg` fails, or it does not, if `sends`, and `recv_msg` does. -/
inductive Conn
  | live (id : ℕ) (unread : List Reply)
  | stale (sends : Bool)
deriving DecidableEq

/-- The tracker, how many connections it has accepted, and what it has answered. -/
structure World (τ : Type) where
  tracker : τ
  opened : ℕ
  log : List (Message × Reply)
deriving DecidableEq

/-- The fields of `TrackerClient`. -/
structure Client where
  eps : List TrackerEndpoint
  fd : Option Conn
  current : ℕ
  lastLogin : Option (Str × Str × UInt16)
deriving DecidableEq

/-- `note_login`. -/
def Client.noteLogin (k : Client) (uid pwd : Str) (port : UInt16) : Client :=
  { k with lastLogin := some (uid, pwd, port) }

/-- `clear_login`. -/
def Client.clearLogin (k : Client) : Client := { k with lastLogin := none }

variable {τ : Type} (net : Network τ)

namespace World

/-- The reply to a message. -/
def reply (w : World τ) (m : Message) : Reply := (net.answer w.tracker m).1

/-- The tracker answers a message. -/
def ask (w : World τ) (m : Message) : World τ :=
  { w with tracker := (net.answer w.tracker m).2, log := w.log ++ [(m, w.reply net m)] }

/-- The tracker answers messages one after another. -/
def asks (w : World τ) (ms : List Message) : World τ := ms.foldl (ask net) w

/-- A connection has been accepted. -/
def accepted (w : World τ) : World τ := { w with opened := w.opened + 1 }

end World

/-! ### The calls on a connection -/

/-- `tcp_connect`. -/
def tcpConnect (w : World τ) (ep : TrackerEndpoint) : Option (Conn × World τ) :=
  if net.accepts ep then some (.live w.opened [], w.accepted) else none

/-- `send_msg`. -/
def sendMsg (w : World τ) (type : UInt16) (payload : Str) : Conn → Option (Conn × World τ)
  | .live id unread =>
      some (.live id (unread ++ [w.reply net ⟨id, type, payload⟩]), w.ask net ⟨id, type, payload⟩)
  | .stale true => some (.stale true, w)
  | .stale false => none

/-- `recv_msg`. -/
def recvMsg : Conn → Option (Reply × Conn)
  | .live id (r :: rest) => some (r, .live id rest)
  | .live _ [] | .stale _ => none

/-- `send_msg` and then `recv_msg`. Where one of them fails, the connection is closed. -/
def exchange (w : World τ) (c : Conn) (type : UInt16) (payload : Str) :
    Option (Reply × Conn) × World τ :=
  match sendMsg net w type payload c with
  | none => (none, w)
  | some (c, w) => (recvMsg c, w)

/-! ### `request` -/

/-- The loop over the endpoints: it begins behind the current one and wraps around. -/
def scan (k : Client) (w : World τ) : Option (Conn × Client × World τ) :=
  (List.range k.eps.length).findSome? fun i => do
    let idx := (k.current + 1 + i) % k.eps.length
    let ep ← k.eps[idx]?
    let (c, w) ← tcpConnect net w ep
    return (c, { k with fd := some c, current := idx }, w)

/-- How a round of the loop ends: with `return`, or with `continue`. -/
inductive Attempt (τ : Type)
  | returned (r : Option Reply) (k : Client) (w : World τ)
  | again (k : Client) (w : World τ)

/-- The login that is replayed before a request. -/
def Client.login (k : Client) (fresh : Bool) (type : UInt16) : Option Str :=
  if fresh ∧ type ≠ MsgType.login.code then k.lastLogin.map putLogin else none

/-- What follows once there is a connection. -/
def talk (k : Client) (w : World τ) (c : Conn) (fresh : Bool) (type : UInt16) (payload : Str) :
    Attempt τ :=
  let (c, w) :=
    match k.login fresh type with
    | none => (some c, w)
    | some lb =>
        -- a reply that is not `ST_OK` is reported only
        let (r, w) := exchange net w c MsgType.login.code lb
        (r.map Prod.snd, w)
  match c with
  | none => .again { k with fd := none } w
  | some c =>
      match exchange net w c type payload with
      | (none, w) => .again { k with fd := none } w
      | (some (r, c), w) => .returned (some r) { k with fd := some c } w

/-- One round of the loop. -/
def attempt (k : Client) (w : World τ) (type : UInt16) (payload : Str) : Attempt τ :=
  match k.fd with
  | some c => talk net k w c false type payload
  | none =>
      match scan net k w with
      | none => .returned none k w
      | some (c, k, w) => talk net k w c true type payload

/-- So many rounds. -/
def rounds (type : UInt16) (payload : Str) :
    ℕ → Client → World τ → Option Reply × Client × World τ
  | 0, k, w => (none, k, w)
  | n + 1, k, w =>
      match attempt net k w type payload with
      | .returned r k w => (r, k, w)
      | .again k w => rounds type payload n k w

/-- `request`: `none` is `false`. -/
def request (k : Client) (w : World τ) (type : UInt16) (payload : Str) :
    Option Reply × Client × World τ :=
  rounds net type payload 2 k w

/-! ### Between calls -/

/-- Nothing is unread. -/
def Conn.Settled : Conn → Prop
  | .live _ unread => unread = []
  | .stale _ => True

/-- The connection, if there is one, is stale or everything on it has been read. -/
def Client.Settled (k : Client) : Prop := ∀ c ∈ k.fd, c.Settled

/-- How a round ends leaves nothing unread. -/
def Attempt.Settled : Attempt τ → Prop
  | .returned _ k _ | .again k _ => k.Settled

variable {net} in
lemma exchange_settled {w : World τ} {c c' : Conn} {type : UInt16} {payload : Str} {r : Reply}
    (hc : c.Settled) (h : (exchange net w c type payload).1 = some (r, c')) : c'.Settled := by
  cases c with
  | live id unread =>
      obtain rfl : unread = [] := hc
      obtain ⟨-, rfl⟩ := Prod.mk.inj (Option.some.inj h)
      rfl
  | stale sends => cases sends <;> cases h

lemma scan_settled {k k' : Client} {w w' : World τ} {c : Conn}
    (h : scan net k w = some (c, k', w')) : c.Settled := by
  obtain ⟨i, -, hfound⟩ := List.exists_of_findSome?_eq_some h
  simp only [Option.bind_eq_bind, Option.bind_eq_some_iff] at hfound
  obtain ⟨ep, -, ⟨c', w''⟩, hconnect, hresult⟩ := hfound
  obtain ⟨rfl, -⟩ := Prod.mk.inj (Option.some.inj hresult)
  rw [tcpConnect] at hconnect
  split at hconnect
  · obtain ⟨rfl, -⟩ := Prod.mk.inj (Option.some.inj hconnect)
    rfl
  · cases hconnect

lemma talk_settled (k : Client) (w : World τ) {c : Conn} (hc : c.Settled) (fresh : Bool)
    (type : UInt16) (payload : Str) : (talk net k w c fresh type payload).Settled := by
  have hrequest : ∀ (w : World τ) (c : Conn), c.Settled →
      (match exchange net w c type payload with
        | (none, w) => Attempt.again { k with fd := none } w
        | (some (r, c), w) => .returned (some r) { k with fd := some c } w).Settled := by
    intro w c hc
    split
    · exact nofun
    · next r c' w' hr =>
        rintro _ ⟨⟩
        exact exchange_settled hc (congrArg Prod.fst hr)
  rw [talk]
  cases k.login fresh type with
  | none => exact hrequest w c hc
  | some lb =>
      dsimp only
      cases hlogin : (exchange net w c MsgType.login.code lb).1 with
      | none => exact nofun
      | some x => exact hrequest _ x.2 (exchange_settled hc hlogin)

lemma attempt_settled {k : Client} (hk : k.Settled) (w : World τ) (type : UInt16) (payload : Str) :
    (attempt net k w type payload).Settled := by
  rw [attempt]
  split
  · next c hfd => exact talk_settled net k w (hk c hfd) false type payload
  · split
    · exact hk
    · next c k' w' hscan => exact talk_settled net k' w' (scan_settled net hscan) true type payload

/-- **Every call leaves nothing unread.** -/
lemma request_settled {k : Client} (hk : k.Settled) (w : World τ) (type : UInt16)
    (payload : Str) : (request net k w type payload).2.1.Settled := by
  have hrounds : ∀ n (k : Client) (w : World τ), k.Settled →
      (rounds net type payload n k w).2.1.Settled := by
    intro n
    induction n with
    | zero => exact fun _ _ hk => hk
    | succ n ih =>
        intro k w hk
        have hattempt := attempt_settled net hk w type payload
        rw [rounds]
        split
        · next h =>
            rw [h] at hattempt
            exact hattempt
        · next h =>
            rw [h] at hattempt
            exact ih _ _ hattempt
  exact hrounds 2 k w hk

/-! ### One live endpoint -/

variable {net} {k : Client} {w : World τ} {type : UInt16} {payload : Str}

/-- The endpoint is the only one of the client that accepts connections. -/
structure OneLive (net : Network τ) (k : Client) (live : TrackerEndpoint) : Prop where
  mem : live ∈ k.eps
  accepts : ∀ ep ∈ k.eps, net.accepts ep = true ↔ ep = live

/-- What is sent on a new connection before the request. -/
def Client.relogin (k : Client) (type : UInt16) (id : ℕ) : List Message :=
  ((k.login true type).map fun lb => ⟨id, MsgType.login.code, lb⟩).toList

/-- The login that was noted last is the one that is replayed. -/
lemma relogin_noteLogin (k : Client) (uid pwd : Str) (port : UInt16) {type : UInt16}
    (htype : type ≠ MsgType.login.code) (id : ℕ) :
    (k.noteLogin uid pwd port).relogin type id =
      [⟨id, MsgType.login.code, putLogin (uid, pwd, port)⟩] := by
  simp [Client.relogin, Client.login, Client.noteLogin, htype]

lemma relogin_clearLogin (k : Client) (type : UInt16) (id : ℕ) :
    k.clearLogin.relogin type id = [] := by
  simp [Client.relogin, Client.login, Client.clearLogin]

/-- **The scan comes round**: every index has its turn. -/
lemma exists_turn {n j : ℕ} (c : ℕ) (hj : j < n) : ∃ i < n, (c + 1 + i) % n = j := by
  have hn : 0 < n := by omega
  have hmod := Nat.mod_lt (c + 1) hn
  refine ⟨(j + (n - (c + 1) % n)) % n, Nat.mod_lt _ hn, ?_⟩
  calc (c + 1 + (j + (n - (c + 1) % n)) % n) % n
      = ((c + 1) % n + (j + (n - (c + 1) % n))) % n := by rw [Nat.add_mod_mod, Nat.mod_add_mod]
    _ = (j + n) % n := by
        congr 1
        omega
    _ = j := by rw [Nat.add_mod_right, Nat.mod_eq_of_lt hj]

/-- **The scan finds the live endpoint.** -/
lemma scan_live {live : TrackerEndpoint} (h : OneLive net k live) (w : World τ) :
    ∃ idx, k.eps[idx]? = some live ∧ scan net k w =
      some (.live w.opened [], { k with fd := some (.live w.opened []), current := idx },
        w.accepted) := by
  obtain ⟨j, hlt, hj⟩ := List.mem_iff_getElem.mp h.mem
  obtain ⟨i, hi, hturn⟩ := exists_turn k.current hlt
  have hlive : net.accepts live = true := (h.accepts live h.mem).mpr rfl
  have hsome : (scan net k w).isSome := by
    rw [scan, List.findSome?_isSome_iff]
    refine ⟨i, List.mem_range.mpr hi, ?_⟩
    simp [hturn, hlt, hj, tcpConnect, hlive]
  obtain ⟨x, hx⟩ := Option.isSome_iff_exists.mp hsome
  obtain ⟨i', -, hfound⟩ := List.exists_of_findSome?_eq_some hx
  simp only [Option.bind_eq_bind, Option.bind_eq_some_iff] at hfound
  obtain ⟨ep, hep, ⟨c, w'⟩, hconnect, hresult⟩ := hfound
  rw [tcpConnect] at hconnect
  split at hconnect
  · next haccepts =>
      obtain ⟨rfl, rfl⟩ := Prod.mk.inj (Option.some.inj hconnect)
      obtain rfl := (h.accepts ep (List.mem_of_getElem? hep)).mp haccepts
      exact ⟨_, hep, hx.trans hresult.symm⟩
  · cases hconnect

/-- A stale connection answers nothing. -/
lemma exchange_stale (w : World τ) (sends : Bool) (type : UInt16) (payload : Str) :
    exchange net w (.stale sends) type payload = (none, w) := by
  cases sends <;> rfl

/-- A connection that is not new is used without a login. -/
lemma login_old (k : Client) (type : UInt16) : k.login false type = none := by
  simp [Client.login]

/-- **The round on a new connection**: the login is answered, and then the request. -/
lemma talk_fresh (net : Network τ) (k : Client) (w : World τ) (id : ℕ) (type : UInt16)
    (payload : Str) :
    talk net k w (.live id []) true type payload =
      .returned (some ((w.asks net (k.relogin type id)).reply net ⟨id, type, payload⟩))
        { k with fd := some (.live id []) }
        ((w.asks net (k.relogin type id)).ask net ⟨id, type, payload⟩) := by
  rw [talk, Client.relogin]
  cases k.login true type with
  | none => rfl
  | some lb => rfl

/-- A round on a stale connection gives it up. -/
lemma attempt_stale {sends : Bool} (hfd : k.fd = some (.stale sends)) :
    attempt net k w type payload = .again { k with fd := none } w := by
  rw [attempt, hfd]
  dsimp only
  rw [talk, login_old]
  dsimp only
  rw [exchange_stale]

/-- **A round without a connection** is the last one. -/
lemma rounds_closed (w : World τ) (type : UInt16) (payload : Str) {live : TrackerEndpoint}
    (h : OneLive net k live) (hfd : k.fd = none) (n : ℕ) :
    ∃ idx, k.eps[idx]? = some live ∧
      let w' := w.accepted.asks net (k.relogin type w.opened)
      rounds net type payload (n + 1) k w =
        (some (w'.reply net ⟨w.opened, type, payload⟩),
          { k with fd := some (.live w.opened []), current := idx },
          w'.ask net ⟨w.opened, type, payload⟩) := by
  obtain ⟨idx, hidx, hscan⟩ := scan_live h w
  refine ⟨idx, hidx, ?_⟩
  have hattempt := talk_fresh net
    { k with fd := some (.live w.opened []), current := idx } w.accepted w.opened type payload
  rw [rounds, attempt, hfd]
  dsimp only
  rw [hscan]
  dsimp only
  rw [hattempt]
  rfl

/-- **One live tracker is enough.** A connection to it is used as it is. Without a connection,
or with a stale one, the request opens one to it, replays the login there and is answered
afterwards. -/
theorem request_one_live (net : Network τ) (k : Client) (w : World τ) {live : TrackerEndpoint}
    (h : OneLive net k live) (type : UInt16) (payload : Str) :
    (∀ id, k.fd = some (.live id []) → request net k w type payload =
      (some (w.reply net ⟨id, type, payload⟩), k, w.ask net ⟨id, type, payload⟩)) ∧
    (k.fd = none ∨ (∃ sends, k.fd = some (.stale sends)) →
      ∃ idx, k.eps[idx]? = some live ∧
        let w' := w.accepted.asks net (k.relogin type w.opened)
        request net k w type payload =
          (some (w'.reply net ⟨w.opened, type, payload⟩),
            { k with fd := some (.live w.opened []), current := idx },
            w'.ask net ⟨w.opened, type, payload⟩)) := by
  refine ⟨fun id hfd => ?_, ?_⟩
  · obtain ⟨eps, fd, current, lastLogin⟩ := k
    obtain rfl : fd = some (.live id []) := hfd
    rw [request, rounds, attempt]
    dsimp only
    rw [talk, login_old]
    rfl
  · rintro (hfd | ⟨sends, hfd⟩)
    · exact rounds_closed w type payload h hfd 1
    · -- the first round closes the connection, the second one opens another
      have hclosed : OneLive net { k with fd := none } live := ⟨h.mem, h.accepts⟩
      obtain ⟨idx, hidx, hrounds⟩ := rounds_closed w type payload hclosed rfl 0
      refine ⟨idx, hidx, ?_⟩
      rw [request, rounds, attempt_stale hfd]
      exact hrounds

/-- A tracker that counts what it is asked, at the second of three endpoints, and a client that
is logged in and has a stale connection to the third one. -/
def counting : Network ℕ :=
  ⟨fun ep => ep.port == 2, fun n m => ((0, n.toUInt8 :: m.payload), n + 1)⟩

def fallenOver : Client :=
  ⟨[⟨[], 1⟩, ⟨[], 2⟩, ⟨[], 3⟩], some (.stale true), 2, some ([1], [2], 80)⟩

theorem request_one_live_fallenOver :
    let outcome := request counting fallenOver ⟨0, 0, []⟩ 99 [7]
    outcome.1 = some (0, [1, 7]) ∧ outcome.2.2.log.map Prod.fst =
      [⟨0, MsgType.login.code, putLogin ([1], [2], 80)⟩, ⟨0, 99, [7]⟩] := by
  intro outcome
  have h : OneLive counting fallenOver ⟨[], 2⟩ := ⟨by decide +kernel, by decide +kernel⟩
  obtain ⟨-, hclosed⟩ := request_one_live counting fallenOver ⟨0, 0, []⟩ h 99 [7]
  obtain ⟨idx, -, hrequest⟩ := hclosed (.inr ⟨true, rfl⟩)
  rw [show outcome = _ from hrequest]
  dsimp only
  exact ⟨by decide +kernel, by decide +kernel⟩

end Reconnect

end P2PShare
