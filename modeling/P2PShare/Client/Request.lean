import P2PShare.Pair.Basic
import P2PShare.Tracker.Refusal

/-!
`client/tracker_client.hpp` and `client/tracker_client.cpp`: a client and its
connections to the trackers, with fail-over.

* `Wire`: one connection, with the requests and the answers that are on their way
  on it. It can be cut at any time, and a request that has arrived by then is
  still read.
* `TrackerClient`: the fields of the class and the point that the loop of
  `request` has reached.
* `Failover.step`: a step of `request`, of a tracker on one of the connections,
  the loss of a connection, and whatever else happens to the trackers.
* `Failover.served`: the requests of the client that a tracker has dispatched,
  with the tracker before and after.
-/

namespace P2PShare

open Cursor Reader

/-- A frame of the client: the request of the call with this number, or the login
that is replayed. -/
structure Query where
  type : UInt16
  payload : Str
  call : Option ℕ
deriving DecidableEq

/-- The answer to a frame of the client. -/
structure Answer where
  status : Status
  payload : Str
  call : Option ℕ
deriving DecidableEq

/-- A connection of the client: the tracker that it leads to, its descriptor there,
what is on its way, whether it is intact and whether the session still runs. -/
structure Wire where
  tracker : Role
  fd : ℕ
  requests : List Query
  answers : List Answer
  up : Bool
  live : Bool
deriving DecidableEq

namespace Wire

/-- A frame is sent. On a connection that is cut it is lost. -/
def push (x : Wire) (q : Query) : Wire :=
  if x.up then { x with requests := x.requests ++ [q] } else x

/-- The session answers the first request, and `rest` is left. -/
def reply (x : Wire) (m : Answer) (rest : List Query) : Wire :=
  { x with requests := rest, answers := if x.up then x.answers ++ [m] else x.answers }

/-- The connection is lost; of what was on its way this much has arrived. -/
def cut (x : Wire) (requests answers : ℕ) : Wire :=
  { x with
    requests := x.requests.take requests
    answers := x.answers.take answers
    up := false }

/-- The calls whose requests or answers are on their way. -/
def load (x : Wire) : List (Option ℕ) := x.requests.map Query.call ++ x.answers.map Answer.call

end Wire

/-- Where a call of `request` is; `attempt` counts from 0. -/
inductive CallStage
  /-- No call yet. -/
  | idle
  /-- `fd_` is negative: about to connect. -/
  | connect (attempt : ℕ)
  /-- About to replay the login on a fresh connection. -/
  | login (attempt : ℕ)
  /-- Waiting for the answer to that. -/
  | loginSent (attempt : ℕ)
  /-- About to send the request. -/
  | send (attempt : ℕ)
  /-- Waiting for its answer. -/
  | sent (attempt : ℕ)
  /-- It has returned true. -/
  | returned (status : Status) (resp : Str)
  /-- It has returned false. -/
  | failed
deriving DecidableEq

/-- No call is under way. -/
def CallStage.Over : CallStage → Prop
  | idle | returned .. | failed => True
  | connect _ | login _ | loginSent _ | send _ | sent _ => False

instance : ∀ g : CallStage, Decidable g.Over
  | .idle | .returned .. | .failed => .isTrue trivial
  | .connect _ | .login _ | .loginSent _ | .send _ | .sent _ => .isFalse id

/-- The attempt that a call makes. -/
def CallStage.attempt : CallStage → ℕ
  | connect a | login a | loginSent a | send a | sent a => a
  | idle | returned .. | failed => 0

/-- `TrackerClient`: the endpoints, the connection `fd_`, `current_` and the last
login, and of the latest call its number, type and payload, the answer to the
login that it replayed, and where it is. -/
structure TrackerClient where
  eps : List Role
  fd : Option ℕ
  current : ℕ
  lastLogin : Option (Str × Str × UInt16)
  call : ℕ
  type : UInt16
  payload : Str
  relogin : Option Status
  stage : CallStage
deriving DecidableEq

namespace TrackerClient

/-- Where the client is when `tcp_connect` has succeeded, in `connect_any` or in the
loop of `request`: a fresh connection has no session, so the last login is replayed
on it. -/
def connected (k : TrackerClient) : Option CallStage :=
  match k.stage with
  | .idle => if k.fd = none then some .idle else none
  | .connect a =>
      some (if k.lastLogin.isSome ∧ k.type ≠ MsgType.login.code then .login a else .send a)
  | .login _ | .loginSent _ | .send _ | .sent _ | .returned .. | .failed => none

/-- `continue`, or the end of the loop after the second attempt. -/
def retry (k : TrackerClient) : CallStage :=
  if k.stage.attempt = 0 then .connect 1 else .failed

end TrackerClient

/-- The payload of `MSG_LOGIN`. -/
def putLogin (p : Str × Str × UInt16) : Str := putStr p.1 ++ putStr p.2.1 ++ putU16 p.2.2

/-- A request of the client that a tracker has dispatched: the call, the connection,
the session and the request as it has got them, the status of the answer, and the
tracker before and after. -/
structure Service where
  call : ℕ
  wire : ℕ
  session : Session
  type : UInt16
  payload : Str
  status : Status
  before : Tracker
  after : Tracker

/-- A client, the trackers and the connections between them. Connections are
numbered as they are made. -/
structure Failover where
  trackers : Pair
  wires : ℕ → Option Wire
  opened : ℕ
  client : TrackerClient
  served : List Service

/-- What can happen. -/
inductive FailoverEvent
  /-- `request` is called. -/
  | call (type : UInt16) (payload : Str)
  /-- `tcp_connect` succeeds for this endpoint, and the tracker accepts. -/
  | connect (i : ℕ) (fd : ℕ) (ip : Str) (hip : ip.length < 2 ^ 32)
  /-- It fails for all of them. -/
  | unreachable
  /-- `send_msg` of the login or of the request. -/
  | send
  /-- The session on this connection reads and dispatches the next request. -/
  | serve (w : ℕ) (now : UInt64)
  /-- `recv_msg` of the next answer. -/
  | receive
  /-- `send_msg` or `recv_msg` fails. -/
  | giveUp
  /-- The connection is lost. -/
  | cut (w requests answers : ℕ)
  /-- The session on it comes to its end. -/
  | finish (w : ℕ)
  | noteLogin (uid pwd : Str) (port : UInt16)
  | clearLogin
  /-- Other clients, the link of the trackers and their restarts. -/
  | others (e : Event)

/-- The descriptor that a client event is about. -/
def ClientEvent.fd : ClientEvent → ℕ
  | connect fd _ _ | request fd _ _ _ | disconnect fd => fd

namespace Failover

/-- Before the first connection. -/
def start (trackers : Pair) (eps : List Role) : Failover :=
  ⟨trackers, fun _ => none, 0, ⟨eps, none, 0, none, 0, 0, [], none, .idle⟩, []⟩

/-- One connection replaced. -/
def setWire (c : Failover) (w : ℕ) (x : Wire) : Failover :=
  { c with wires := Function.update c.wires w (some x) }

/-- The client replaced. -/
def setClient (c : Failover) (k : TrackerClient) : Failover := { c with client := k }

/-- The descriptor on the tracker belongs to a session of the client. -/
def Owns (c : Failover) (r : Role) (fd : ℕ) : Prop :=
  ∃ w < c.opened, ∃ x ∈ c.wires w, x.live ∧ x.tracker = r ∧ x.fd = fd

instance (c : Failover) (r : Role) (fd : ℕ) : Decidable (c.Owns r fd) :=
  inferInstanceAs (Decidable (∃ w < c.opened, ∃ x ∈ c.wires w, _))

/-- The event leaves the sessions of the client alone. -/
def Foreign (c : Failover) : Event → Prop
  | .client r ev => ¬ c.Owns r ev.fd
  | .dial | .advance _ | .deliver _ | .drop | .restart _ => True

instance (c : Failover) : ∀ e, Decidable (c.Foreign e)
  | .client r ev => inferInstanceAs (Decidable (¬ c.Owns r ev.fd))
  | .dial | .advance _ | .deliver _ | .drop | .restart _ => .isTrue trivial

/-- The connections after such an event: a process that starts again has none. -/
def survivors (c : Failover) : Event → ℕ → Option Wire
  | .restart r, w => (c.wires w).map fun x =>
      if x.tracker = r then { x.cut 0 x.answers.length with live := false } else x
  | .client .., w | .dial, w | .advance _, w | .deliver _, w | .drop, w => c.wires w

/-- `tcp_connect` succeeds for endpoint `i`. -/
def connect (H : Str → Str) (c : Failover) (i fd : ℕ) (ip : Str) (hip : ip.length < 2 ^ 32) :
    Option Failover := do
  let r ← c.client.eps[i]?
  let stage ← c.client.connected
  if (c.trackers r).server.sessions fd = none then
    some
      { c with
        trackers := c.trackers.client H r (.connect fd ip hip)
        wires := Function.update c.wires c.opened (some ⟨r, fd, [], [], true, true⟩)
        opened := c.opened + 1
        client := { c.client with fd := some c.opened, current := i, stage := stage } }
  else none

/-- What `request` sends next, and where it is then. -/
def toSend (k : TrackerClient) : Option (Query × CallStage) :=
  match k.stage with
  | .login a => k.lastLogin.map fun p => (⟨MsgType.login.code, putLogin p, none⟩, .loginSent a)
  | .send a => some (⟨k.type, k.payload, some k.call⟩, .sent a)
  | .idle | .connect _ | .loginSent _ | .sent _ | .returned .. | .failed => none

/-- `send_msg`. -/
def send (c : Failover) : Option Failover := do
  let (q, stage) ← toSend c.client
  let w ← c.client.fd
  let x ← c.wires w
  some ((c.setWire w (x.push q)).setClient { c.client with stage := stage })

/-- The session on a connection dispatches the next request. -/
def serve (H : Str → Str) (c : Failover) (w : ℕ) (now : UInt64) : Option Failover := do
  let x ← c.wires w
  let σ ← (c.trackers x.tracker).server.sessions x.fd
  match x.requests with
  | [] => none
  | q :: rest =>
      if x.live ∧ q.payload.length ≤ maxPayload then
        let before := (c.trackers x.tracker).server.tracker
        let o := σ.dispatch H before.state q.type q.payload
        let trackers := c.trackers.client H x.tracker (.request x.fd q.type q.payload now)
        let after := (trackers x.tracker).server.tracker
        some
          { c.setWire w (x.reply ⟨o.status, o.payload, q.call⟩ rest) with
            trackers := trackers
            served := c.served ++ q.call.toList.map fun n =>
              ⟨n, w, σ, q.type, q.payload, o.status, before, after⟩ }
      else none

/-- `request` reads an answer: that to the login is looked at only to print it. -/
def receive (c : Failover) : Option Failover := do
  let w ← c.client.fd
  let x ← c.wires w
  match x.answers with
  | [] => none
  | m :: rest =>
      let c' := c.setWire w { x with answers := rest }
      match c.client.stage with
      | .loginSent a =>
          some (c'.setClient { c.client with relogin := some m.status, stage := .send a })
      | .sent _ => some (c'.setClient { c.client with stage := .returned m.status m.payload })
      | .idle | .connect _ | .login _ | .send _ | .returned .. | .failed => none

/-- One step. -/
def step (H : Str → Str) (c : Failover) : FailoverEvent → Option Failover
  | .call type payload =>
      if c.client.stage.Over then
        some <| c.setClient
          { c.client with
            call := c.client.call + 1
            type := type
            payload := payload
            relogin := none
            stage := if c.client.fd.isSome then .send 0 else .connect 0 }
      else none
  | .connect i fd ip hip => c.connect H i fd ip hip
  | .unreachable =>
      match c.client.stage with
      | .connect _ => some (c.setClient { c.client with stage := .failed })
      | _ => none
  | .send => c.send
  | .serve w now => c.serve H w now
  | .receive => c.receive
  | .giveUp => do
      let x ← c.wires (← c.client.fd)
      if x.up = false ∧ ¬ c.client.stage.Over then
        some (c.setClient { c.client with fd := none, stage := c.client.retry })
      else none
  | .cut w requests answers => (c.wires w).map fun x => c.setWire w (x.cut requests answers)
  | .finish w => do
      let x ← c.wires w
      if x.up = false ∧ x.live ∧ x.requests = [] then
        some
          { c.setWire w { x with live := false } with
            trackers := c.trackers.client H x.tracker (.disconnect x.fd) }
      else none
  | .noteLogin uid pwd port =>
      if c.client.stage.Over then
        some (c.setClient { c.client with lastLogin := some (uid, pwd, port) })
      else none
  | .clearLogin =>
      if c.client.stage.Over then some (c.setClient { c.client with lastLogin := none }) else none
  | .others e =>
      if c.Foreign e then
        (c.trackers.step H e).map fun trackers =>
          { c with trackers := trackers, wires := c.survivors e }
      else none

/-- A call that is answered on this connection. -/
def exchange (w : ℕ) (t : MsgType) (payload : Str) : List FailoverEvent :=
  [.call t.code payload, .send, .serve w 0, .receive]

end Failover

end P2PShare
