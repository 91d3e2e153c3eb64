import P2PShare.Common.Net
import P2PShare.Lib.Runs
import P2PShare.Tracker.Server

/-!
The connections of a tracker, byte by byte: the thread that `main` starts for each
of them, `Session::run`, and the loop over the link to the other tracker.

* `Daemon.turn`: one turn of such a thread. It reads a message and dispatches it,
  or it comes to its end; the first message may hand the connection over to
  `handle_peer_connection`. `Daemon.linkTurn`: one turn of the loop there, or of the
  one in `connect_loop`.
* `Daemon.server`, `Daemon.trace`: the tracker with its sessions, and what its
  clients and the other tracker have done to it message by message. `server_exec`
  (**refinement**): the bytes lead where these arrivals do.
* `talk` and `conversation` (**a conversation over a connection**): however the
  calls split the bytes, and whatever the other connections do, the requests are
  dispatched as they were sent, and the replies arrive in their order.

There is one link at a time. A second one closes the descriptor of the first under the
thread that reads from it; `Threads.Descriptors` is about that.
-/

namespace P2PShare

open Cursor Reader PartialIo

/-! ### Threads and sockets -/

/-- A connection that a thread serves: the session, once the first message has been
read, what the client still sends, and how the calls on the socket come out. -/
structure Connection where
  peerIp : Str
  peerIp_lt : peerIp.length < 2 ^ 32
  session : Option Session
  input : Str
  reads : List IoCall
  writes : List IoCall

/-- The link to the other tracker, from whichever side it has been set up: what the other
tracker still sends, and how the calls that read it come out. -/
structure Link where
  fd : ℕ
  input : Str
  reads : List IoCall

/-- The process of a tracker: the connections by descriptor, the link to the other
tracker if it is up, and the bytes written to each client since it was accepted. What
the tracker writes to the link is not kept. -/
structure Daemon where
  tracker : Tracker
  conns : ℕ → Option Connection
  link : Option Link
  sent : ℕ → Str

/-- What can happen. -/
inductive SocketEvent
  /-- `accept` returns, and the client will send `input`. -/
  | accept (fd : ℕ) (ip : Str) (hip : ip.length < 2 ^ 32) (input : Str)
      (reads writes : List IoCall)
  /-- `connect_loop` has reached the other tracker, which will send `input`. -/
  | dial (fd : ℕ) (input : Str) (reads : List IoCall)
  /-- The thread of this connection runs until it reads again. -/
  | turn (fd : ℕ) (now : UInt64)

/-- What reaches a tracker, message by message. -/
inductive Arrival
  | client (ev : ClientEvent)
  | peer (m : SyncMsg)

/-- The session that the next message is for. -/
def Connection.current (c : Connection) : Session :=
  c.session.getD (.start c.peerIp c.peerIp_lt)

/-- `reply`. -/
def Outcome.reply (o : Outcome) : Msg := ⟨MsgType.response.code, o.status.code, o.payload⟩

/-- `main` looks for this type in the first message of a connection. -/
def Connection.Hello (c : Connection) (type : UInt16) : Prop :=
  c.session = none ∧ type = MsgType.syncHello.code

instance (c : Connection) (type : UInt16) : Decidable (c.Hello type) :=
  inferInstanceAs (Decidable (_ ∧ _))

/-- The tracker with its sessions after a client's event or a message of the other
tracker. -/
def Server.take (H : Str → Str) (sv : Server) : Arrival → Server
  | .client ev => (sv.serve H ev).2
  | .peer m => { sv with tracker := (sv.tracker.process H m).2 }

namespace Daemon

/-- Before the first connection. -/
def start : Daemon := ⟨.start, fun _ => none, none, fun _ => []⟩

/-- `handle_one`, or one turn of the loop of `run`: the request is dispatched, what it
changes is recorded, and the reply is written, whatever `send_msg` returns. -/
def handle (H : Str → Str) (d : Daemon) (fd : ℕ) (c : Connection) (type : UInt16) (payload : Str)
    (now : UInt64) : Daemon :=
  let o := c.current.dispatch H d.tracker.state type payload
  let t := { d.tracker with state := o.state }
  let w := sendMsg c.writes o.reply
  { tracker := match o.record with
      | none => t
      | some rep => t.record (t.nextOp rep.1 rep.2 now)
    conns := Function.update d.conns fd
      (some { c with session := some o.session, writes := w.calls })
    link := d.link
    sent := Function.update d.sent fd (d.sent fd ++ w.out) }

/-- The thread ends: whoever is still logged in is logged out. -/
def close (d : Daemon) (fd : ℕ) (c : Connection) : Daemon :=
  { d with
    tracker := { d.tracker with
      state := c.session.elim d.tracker.state fun σ => σ.finish d.tracker.state }
    conns := Function.update d.conns fd none }

/-- One turn of the thread of a connection. -/
def turn (H : Str → Str) (d : Daemon) (fd : ℕ) (c : Connection) (now : UInt64) : Option Daemon :=
  match recvMsg c.reads c.input with
  | (.message hdr payload, rest, reads) =>
      if c.Hello hdr.type then
        if d.link.isSome then none
        else some
          { d with
            conns := Function.update d.conns fd none
            link := some ⟨fd, rest, reads⟩ }
      else some (d.handle H fd { c with input := rest, reads := reads } hdr.type payload now)
  | (.closed, _, _) | (.error, _, _) => some (d.close fd c)

/-- One turn of the loop over the link: `process_peer_message`, which does nothing about
what it cannot read. -/
def linkTurn (H : Str → Str) (d : Daemon) (l : Link) : Daemon :=
  match recvMsg l.reads l.input with
  | (.message hdr payload, rest, reads) =>
      { d with
        tracker := (SyncMsg.parse hdr.type payload).elim d.tracker fun m =>
          (d.tracker.process H m).2
        link := some ⟨l.fd, rest, reads⟩ }
  | (.closed, _, _) | (.error, _, _) => { d with link := none }

/-- Nothing has the descriptor open. -/
def Free (d : Daemon) (fd : ℕ) : Prop := d.conns fd = none ∧ ∀ l ∈ d.link, l.fd ≠ fd

/-- A descriptor is given again when nothing has it open. -/
def step (H : Str → Str) (d : Daemon) : SocketEvent → Option Daemon
  | .accept fd ip hip input reads writes =>
      if (d.conns fd).isNone ∧ ∀ l ∈ d.link, l.fd ≠ fd then
        some { d with
          conns := Function.update d.conns fd (some ⟨ip, hip, none, input, reads, writes⟩)
          sent := Function.update d.sent fd [] }
      else none
  | .dial fd input reads =>
      if (d.conns fd).isNone ∧ d.link.isNone then some { d with link := some ⟨fd, input, reads⟩ }
      else none
  | .turn fd now =>
      match d.conns fd with
      | some c => d.turn H fd c now
      | none => (d.link.filter fun l => l.fd = fd).map (d.linkTurn H)

/-! ### The tracker under it -/

/-- The tracker with its sessions. -/
def server (d : Daemon) : Server := ⟨d.tracker, fun fd => (d.conns fd).map Connection.current⟩

/-- What a client does in a turn of the thread of its connection. -/
def askedBy (fd : ℕ) (now : UInt64) (c : Connection) : ClientEvent :=
  match (recvMsg c.reads c.input).1 with
  | .message hdr payload =>
      if c.Hello hdr.type then .disconnect fd else .request fd hdr.type payload now
  | .closed | .error => .disconnect fd

/-- What the other tracker says in a turn of the loop over the link. -/
def Link.said (l : Link) : Option SyncMsg :=
  match (recvMsg l.reads l.input).1 with
  | .message hdr payload => SyncMsg.parse hdr.type payload
  | .closed | .error => none

/-- What reaches the tracker in this event. -/
def asked (d : Daemon) : SocketEvent → Option Arrival
  | .accept fd ip hip _ _ _ => some (.client (.connect fd ip hip))
  | .dial .. => none
  | .turn fd now =>
      match d.conns fd with
      | some c => some (.client (askedBy fd now c))
      | none => (d.link.filter fun l => l.fd = fd).bind fun l => (Link.said l).map .peer

/-- What reaches the tracker in these events. -/
def trace (H : Str → Str) (d : Daemon) : List SocketEvent → List Arrival
  | [] => []
  | e :: es => (d.asked e).toList ++ (d.step H e).elim [] fun d' => trace H d' es

variable {H : Str → Str} {d d' : Daemon} {fd : ℕ} {c : Connection}

lemma sessions_update (x : Option Connection) :
    (fun k => (Function.update d.conns fd x k).map Connection.current) =
      d.server.setSession fd (x.map Connection.current) := by
  funext k
  rw [Server.setSession]
  by_cases hk : k = fd
  · rw [hk, Function.update_self, Function.update_self]
  · rw [Function.update_of_ne hk, Function.update_of_ne hk]
    rfl

lemma sessions_server (hc : d.conns fd = some c) : d.server.sessions fd = some c.current := by
  change (d.conns fd).map Connection.current = _
  rw [hc]
  rfl

/-- A connection on which nobody is logged in ends without a trace. -/
lemma serve_disconnect_start (hc : d.conns fd = some c) (hnew : c.session = none) :
    (d.server.serve H (.disconnect fd)).2 = ⟨d.tracker, d.server.setSession fd none⟩ := by
  have hcurrent : c.current = .start c.peerIp c.peerIp_lt := by rw [Connection.current, hnew]; rfl
  have hfinish : c.current.finish d.tracker.state = d.tracker.state := by
    rw [hcurrent]
    exact if_pos rfl
  rw [Server.serve, Server.apply, sessions_server hc]
  dsimp only
  rw [show d.server.tracker = d.tracker from rfl, hfinish]

lemma server_close (hc : d.conns fd = some c) :
    (d.close fd c).server = (d.server.serve H (.disconnect fd)).2 := by
  cases hσ : c.session with
  | none =>
      rw [serve_disconnect_start hc hσ, server, close, sessions_update, hσ]
      rfl
  | some σ =>
      have hcurrent : c.current = σ := by rw [Connection.current, hσ]; rfl
      rw [Server.serve, Server.apply, sessions_server hc, server, close, sessions_update, hσ,
        hcurrent]
      rfl

lemma server_handle {c' : Connection} (hc : d.conns fd = some c) (hcurrent : c'.current = c.current)
    (type : UInt16) (payload : Str) (now : UInt64) :
    (d.handle H fd c' type payload now).server =
      (d.server.serve H (.request fd type payload now)).2 := by
  rw [server, handle, sessions_update, hcurrent, Server.serve, Server.apply, sessions_server hc]
  dsimp only
  rw [show d.server.tracker = d.tracker from rfl]
  cases (c.current.dispatch H d.tracker.state type payload).record with
  | none => rfl
  | some rep => rfl

/-- A turn of a client's thread is what the client does in it. -/
lemma server_turn (hc : d.conns fd = some c) {now : UInt64} (hturn : d.turn H fd c now = some d') :
    d'.server = (d.server.serve H (askedBy fd now c)).2 := by
  revert hturn
  rw [turn, askedBy]
  rcases recvMsg c.reads c.input with ⟨⟨hdr, payload⟩ | _ | _, rest, reads⟩ <;> intro hturn
  · dsimp only at hturn ⊢
    split at hturn
    · next hhello =>
        split at hturn
        · cases hturn
        · obtain rfl := Option.some.inj hturn
          rw [if_pos hhello, serve_disconnect_start hc hhello.1, server, sessions_update]
          rfl
    · next hno =>
        obtain rfl := Option.some.inj hturn
        rw [if_neg hno]
        refine server_handle hc ?_ hdr.type payload now
        rfl
  · obtain rfl := Option.some.inj hturn
    exact server_close hc
  · obtain rfl := Option.some.inj hturn
    exact server_close hc

/-- A turn of the loop over the link is what the other tracker says in it. -/
lemma server_linkTurn (l : Link) :
    (d.linkTurn H l).server = ((Link.said l).map .peer).toList.foldl (Server.take H) d.server := by
  rw [linkTurn, Link.said]
  rcases recvMsg l.reads l.input with ⟨⟨hdr, payload⟩ | _ | _, rest, reads⟩
  · dsimp only
    cases SyncMsg.parse hdr.type payload with
    | none => rfl
    | some m => rfl
  · rfl
  · rfl

/-- **One event** is what reaches the tracker in it. -/
lemma server_step {e : SocketEvent} (hstep : d.step H e = some d') :
    d'.server = (d.asked e).toList.foldl (Server.take H) d.server := by
  cases e with
  | accept fd ip hip input reads writes =>
      rw [step] at hstep
      split at hstep
      · next hfree =>
          obtain rfl := Option.some.inj hstep
          have hnone : d.conns fd = none := Option.isNone_iff_eq_none.mp hfree.1
          have habsent : d.server.sessions fd = none := by
            change (d.conns fd).map Connection.current = none
            rw [hnone]
            rfl
          change _ = (d.server.serve H (.connect fd ip hip)).2
          rw [Server.serve, Server.apply, habsent, server, sessions_update]
          rfl
      · cases hstep
  | dial fd input reads =>
      rw [step] at hstep
      split at hstep
      · obtain rfl := Option.some.inj hstep
        rfl
      · cases hstep
  | turn fd now =>
      rw [step] at hstep
      rw [asked]
      cases hc : d.conns fd with
      | some c =>
          rw [hc] at hstep
          exact server_turn hc hstep
      | none =>
          rw [hc] at hstep
          obtain ⟨l, hl, rfl⟩ := Option.map_eq_some_iff.mp hstep
          rw [hl]
          exact server_linkTurn l

/-- **Refinement**: whatever arrives on the connections and on the link, and however the
calls come out, the tracker is where it leads message by message. -/
lemma server_exec {es : List SocketEvent} (hexec : exec (step H) d es = some d') :
    d'.server = (d.trace H es).foldl (Server.take H) d.server := by
  induction es generalizing d with
  | nil =>
      obtain rfl : d = d' := Option.some.inj hexec
      rfl
  | cons e es ih =>
      obtain ⟨d₁, hstep, hrest⟩ := Option.bind_eq_some_iff.mp hexec
      rw [trace, hstep, Option.elim_some, List.foldl_append, ← server_step hstep]
      exact ih hrest

/-! ### One connection -/

/-- The requests on a descriptor. -/
def asksOn (fd : ℕ) (evs : List Arrival) : List (UInt16 × Str) :=
  evs.filterMap fun
    | .client (.request k type payload _) => if k = fd then some (type, payload) else none
    | .client (.connect ..) | .client (.disconnect _) | .peer _ => none

/-- The turns of the thread of a connection. -/
def turnsOn (fd : ℕ) (es : List SocketEvent) : ℕ :=
  es.countP fun
    | .turn k _ => decide (k = fd)
    | .accept .. | .dial .. => false

end Daemon

/-- The descriptor is given to a new connection or to the link. -/
def SocketEvent.Opens (fd : ℕ) : SocketEvent → Prop
  | accept k _ _ _ _ _ | dial k _ _ => k = fd
  | turn .. => False

namespace Server

/-- The reply to an arrival, if it is a request on this descriptor. -/
def replyOn (H : Str → Str) (fd : ℕ) (sv : Server) : Arrival → Option Msg
  | .client (.request k type payload _) =>
      if k = fd then
        (sv.sessions k).map fun σ => (σ.dispatch H sv.tracker.state type payload).reply
      else none
  | .client (.connect ..) | .client (.disconnect _) | .peer _ => none

/-- The replies to the requests on a descriptor, in order. -/
def repliesOn (H : Str → Str) (fd : ℕ) (sv : Server) : List Arrival → List Msg
  | [] => []
  | ev :: evs => (sv.replyOn H fd ev).toList ++ repliesOn H fd (sv.take H ev) evs

lemma repliesOn_append (H : Str → Str) (fd : ℕ) (sv : Server) (evs evs' : List Arrival) :
    sv.repliesOn H fd (evs ++ evs') =
      sv.repliesOn H fd evs ++ (evs.foldl (take H) sv).repliesOn H fd evs' := by
  induction evs generalizing sv with
  | nil => rfl
  | cons ev evs ih =>
      rw [List.cons_append, repliesOn, repliesOn, ih, List.append_assoc]
      rfl

end Server

/-- A stream that holds no further message. -/
def NoMore (tail : Str) : Prop := tail = [] ∨ Broken tail

lemma NoMore.ne_message {tail : Str} (h : NoMore tail) (calls : List IoCall) (hdr : MsgHeader)
    (payload : Str) : (recvMsg calls tail).1 ≠ .message hdr payload := by
  rcases h with rfl | hbroken
  · intro hrecv
    obtain ⟨m, rest, -, hstream, -, -⟩ := recvMsg_eq_message hrecv
    have hlen := congrArg List.length hstream
    rw [Msg.frame, List.append_assoc, List.length_append, MsgHeader.length_bytes, MsgHeader.size,
      List.length_nil] at hlen
    omega
  · exact hbroken.ne_message calls hdr payload

/-- A connection on which these messages are still to come, and no other. -/
structure Connection.Sends (c : Connection) (msgs : List Msg) : Prop where
  input : ∃ tail, c.input = msgs.flatMap Msg.frame ++ tail ∧ NoMore tail
  size : ∀ m ∈ msgs, m.payload.length ≤ maxPayload
  reads : Undisturbed c.reads
  writes : Undisturbed c.writes
  client : ∀ m ∈ msgs.head?, ¬ c.Hello m.type

namespace Daemon

variable {H : Str → Str} {d d' : Daemon} {fd : ℕ} {c : Connection} {e : SocketEvent}
  {es : List SocketEvent}

/-- What an event that has nothing to do with a descriptor leaves as it is there. -/
structure Aside (H : Str → Str) (fd : ℕ) (d : Daemon) (e : SocketEvent) (d' : Daemon) : Prop where
  conns : d'.conns fd = d.conns fd
  link : (∀ l ∈ d.link, l.fd ≠ fd) → ∀ l ∈ d'.link, l.fd ≠ fd
  sent : d'.sent fd = d.sent fd
  asks : asksOn fd (d.asked e).toList = []
  replies : ∀ sv : Server, sv.repliesOn H fd (d.asked e).toList = []

/-- A turn of another client's thread. -/
lemma aside_turn {k : ℕ} (hne : fd ≠ k) (hc : d.conns k = some c) {now : UInt64}
    (hturn : d.turn H k c now = some d') : Aside H fd d (.turn k now) d' := by
  have hasked : d.asked (.turn k now) = some (.client (askedBy k now c)) := by rw [asked, hc]
  have hsilent : asksOn fd [.client (askedBy k now c)] = [] ∧
      ∀ sv : Server, sv.repliesOn H fd [.client (askedBy k now c)] = [] := by
    rw [askedBy]
    rcases (recvMsg c.reads c.input).1 with ⟨hdr, payload⟩ | _ | _
    · dsimp only
      split
      · exact ⟨rfl, fun sv => rfl⟩
      · exact ⟨by simp [asksOn, hne.symm],
          fun sv => by simp [Server.repliesOn, Server.replyOn, hne.symm]⟩
    · exact ⟨rfl, fun sv => rfl⟩
    · exact ⟨rfl, fun sv => rfl⟩
  revert hturn
  rw [turn]
  rcases recvMsg c.reads c.input with ⟨⟨hdr, payload⟩ | _ | _, rest, reads⟩ <;> intro hturn
  · dsimp only at hturn
    split at hturn
    · -- the connection becomes the link
      split at hturn
      · cases hturn
      · obtain rfl := Option.some.inj hturn
        refine ⟨Function.update_of_ne hne _ _, fun _ l hl => ?_, rfl,
          by rw [hasked]; exact hsilent.1, by rw [hasked]; exact hsilent.2⟩
        obtain rfl := Option.some.inj hl
        exact hne.symm
    · obtain rfl := Option.some.inj hturn
      exact ⟨Function.update_of_ne hne _ _, id, Function.update_of_ne hne _ _,
        by rw [hasked]; exact hsilent.1, by rw [hasked]; exact hsilent.2⟩
  · obtain rfl := Option.some.inj hturn
    exact ⟨Function.update_of_ne hne _ _, id, rfl, by rw [hasked]; exact hsilent.1,
      by rw [hasked]; exact hsilent.2⟩
  · obtain rfl := Option.some.inj hturn
    exact ⟨Function.update_of_ne hne _ _, id, rfl, by rw [hasked]; exact hsilent.1,
      by rw [hasked]; exact hsilent.2⟩

/-- A turn of the loop over the link. -/
lemma aside_linkTurn {k : ℕ} {now : UInt64} {l : Link} (hc : d.conns k = none)
    (hl : d.link.filter (fun l => l.fd = k) = some l) :
    Aside H fd d (.turn k now) (d.linkTurn H l) := by
  have hmem : d.link = some l := (Option.filter_eq_some_iff.mp hl).1
  have hasked : d.asked (.turn k now) = (Link.said l).map .peer := by
    rw [asked, hc, hl]
    rfl
  have hsilent : asksOn fd ((Link.said l).map Arrival.peer).toList = [] ∧
      ∀ sv : Server, sv.repliesOn H fd ((Link.said l).map .peer).toList = [] := by
    cases Link.said l with
    | none => exact ⟨rfl, fun sv => rfl⟩
    | some m => exact ⟨rfl, fun sv => rfl⟩
  rw [← hasked] at hsilent
  rw [linkTurn]
  rcases recvMsg l.reads l.input with ⟨⟨hdr, payload⟩ | _ | _, rest, reads⟩
  · refine ⟨rfl, fun hlink l' hl' => ?_, rfl, hsilent.1, hsilent.2⟩
    obtain rfl := Option.some.inj hl'
    exact hlink l hmem
  · exact ⟨rfl, fun _ l' hl' => (by cases hl'), rfl, hsilent.1, hsilent.2⟩
  · exact ⟨rfl, fun _ l' hl' => (by cases hl'), rfl, hsilent.1, hsilent.2⟩

/-- What happens on the other descriptors. -/
lemma step_other (hstep : d.step H e = some d') (hopen : ¬ e.Opens fd)
    (hturn : ∀ now, e ≠ .turn fd now) : Aside H fd d e d' := by
  cases e with
  | accept k ip hip input reads writes =>
      have hne : fd ≠ k := fun h => hopen h.symm
      rw [step] at hstep
      split at hstep
      · obtain rfl := Option.some.inj hstep
        exact ⟨Function.update_of_ne hne _ _, id, Function.update_of_ne hne _ _, rfl, fun sv => rfl⟩
      · cases hstep
  | dial k input reads =>
      rw [step] at hstep
      split at hstep
      · obtain rfl := Option.some.inj hstep
        refine ⟨rfl, fun _ l hl => ?_, rfl, rfl, fun sv => rfl⟩
        obtain rfl := Option.some.inj hl
        exact hopen
      · cases hstep
  | turn k now =>
      have hne : fd ≠ k := fun h => hturn now (by rw [h])
      rw [step] at hstep
      cases hc : d.conns k with
      | some c =>
          rw [hc] at hstep
          exact aside_turn hne hc hstep
      | none =>
          rw [hc] at hstep
          obtain ⟨l, hl, rfl⟩ := Option.map_eq_some_iff.mp hstep
          exact aside_linkTurn hc hl

/-- Nothing is read from a descriptor that is not open. -/
lemma Free.not_turn (h : d.Free fd) (now : UInt64) : d.step H (.turn fd now) = none := by
  rw [step, h.1]
  dsimp only
  rw [Option.map_eq_none_iff, Option.filter_eq_none_iff]
  exact fun l hl => by simpa using h.2 l hl

/-- **A connection that has ended** stays silent. -/
lemma exec_ended (hfree : d.Free fd) (hopen : ∀ e ∈ es, ¬ e.Opens fd)
    (hexec : exec (step H) d es = some d') :
    d'.conns fd = none ∧ d'.sent fd = d.sent fd ∧ turnsOn fd es = 0 ∧
      asksOn fd (d.trace H es) = [] ∧ ∀ sv : Server, sv.repliesOn H fd (d.trace H es) = [] := by
  induction es generalizing d with
  | nil =>
      obtain rfl : d = d' := Option.some.inj hexec
      exact ⟨hfree.1, rfl, rfl, rfl, fun sv => rfl⟩
  | cons e es ih =>
      obtain ⟨d₁, hstep, hrest⟩ := Option.bind_eq_some_iff.mp hexec
      have hturn : ∀ now, e ≠ .turn fd now := by
        rintro now rfl
        rw [hfree.not_turn now] at hstep
        cases hstep
      have haside := step_other hstep (hopen e List.mem_cons_self) hturn
      obtain ⟨hconns', hsent', hturns', hasks', hreplies'⟩ :=
        ih ⟨haside.conns.trans hfree.1, haside.link hfree.2⟩
          (fun x hx => hopen x (List.mem_cons_of_mem e hx)) hrest
      refine ⟨hconns', hsent'.trans haside.sent, ?_, ?_, fun sv => ?_⟩
      · rw [turnsOn, List.countP_cons_of_neg, ← turnsOn, hturns']
        cases e with
        | turn k now => simpa using fun h : k = fd => hturn now (by rw [h])
        | accept | dial => simp
      · rw [trace, hstep, Option.elim_some, asksOn, List.filterMap_append, ← asksOn, ← asksOn,
          haside.asks, hasks']
        rfl
      · rw [trace, hstep, Option.elim_some, Server.repliesOn_append, haside.replies, hreplies']
        rfl

/-- **A turn that reads a message** dispatches it and writes the reply. -/
lemma turn_next (fd : ℕ) {m : Msg} {msgs : List Msg} (h : c.Sends (m :: msgs)) (now : UInt64) :
    ∃ d₁, d.turn H fd c now = some d₁ ∧ (∃ c₁, d₁.conns fd = some c₁ ∧ c₁.Sends msgs) ∧
      d₁.link = d.link ∧ d₁.sent fd = d.sent fd ++
        (c.current.dispatch H d.tracker.state m.type m.payload).reply.frame ∧
      askedBy fd now c = .request fd m.type m.payload now := by
  obtain ⟨tail, hinput, htail⟩ := h.input
  rw [List.flatMap_cons, List.append_assoc] at hinput
  obtain ⟨reads, hreads, hrecv⟩ := recvMsg_frame h.reads (h.size m List.mem_cons_self)
    (msgs.flatMap Msg.frame ++ tail)
  have hno : ¬ c.Hello m.header.type := h.client m rfl
  obtain ⟨-, hout, hwrites⟩ := sendMsg_undisturbed h.writes
    (c.current.dispatch H d.tracker.state m.type m.payload).reply
  rw [turn, askedBy, hinput, hrecv]
  dsimp only
  rw [if_neg hno, if_neg hno]
  refine ⟨_, rfl, ⟨_, Function.update_self .., ?_⟩, rfl, ?_, rfl⟩
  · refine ⟨⟨tail, rfl, htail⟩, fun x hx => h.size x (List.mem_cons_of_mem m hx), hreads, hwrites,
      fun x _ hhello => ?_⟩
    cases hhello.1
  · exact (Function.update_self ..).trans (congrArg _ hout)

/-- A turn at the end of the stream ends the connection. -/
lemma turn_last (h : c.Sends []) (now : UInt64) :
    ∃ d₁, d.turn H fd c now = some d₁ ∧ d₁.conns fd = none ∧ d₁.link = d.link ∧
      d₁.sent fd = d.sent fd ∧ askedBy fd now c = .disconnect fd := by
  obtain ⟨tail, hinput, htail⟩ := h.input
  rw [List.flatMap_nil, List.nil_append] at hinput
  have hno := htail.ne_message c.reads
  rw [turn, askedBy, hinput]
  rcases hrecv : recvMsg c.reads tail with ⟨⟨hdr, payload⟩ | _ | _, rest, reads⟩
  · exact absurd (congrArg Prod.fst hrecv) (hno hdr payload)
  · exact ⟨_, rfl, Function.update_self .., rfl, rfl, rfl⟩
  · exact ⟨_, rfl, Function.update_self .., rfl, rfl, rfl⟩

/-- **What a connection makes of its messages**: its thread dispatches one in each
turn, and ends after the last. -/
structure Talk (H : Str → Str) (fd : ℕ) (msgs : List Msg) (d : Daemon) (es : List SocketEvent)
    (d' : Daemon) : Prop where
  asks : asksOn fd (d.trace H es) =
    (msgs.take (turnsOn fd es)).map fun m => (m.type, m.payload)
  sent : d'.sent fd = d.sent fd ++
    (d.server.repliesOn H fd (d.trace H es)).flatMap Msg.frame
  ended : d'.conns fd = none ↔ msgs.length < turnsOn fd es

/-- Events of which one comes first. -/
lemma turnsOn_cons (fd : ℕ) (e : SocketEvent) (es : List SocketEvent) :
    turnsOn fd (e :: es) = turnsOn fd [e] + turnsOn fd es := by
  rw [turnsOn, List.countP_cons, Nat.add_comm, turnsOn, turnsOn, List.countP_singleton]

lemma trace_cons (hstep : d.step H e = some d') :
    d.trace H (e :: es) = (d.asked e).toList ++ d'.trace H es := by
  rw [trace, hstep, Option.elim_some]

lemma asksOn_append (fd : ℕ) (evs evs' : List Arrival) :
    asksOn fd (evs ++ evs') = asksOn fd evs ++ asksOn fd evs' := List.filterMap_append

/-- **The run lemma.** -/
lemma talk {msgs : List Msg} (hc : d.conns fd = some c) (hlink : ∀ l ∈ d.link, l.fd ≠ fd)
    (h : c.Sends msgs) (hopen : ∀ e ∈ es, ¬ e.Opens fd) (hexec : exec (step H) d es = some d') :
    Talk H fd msgs d es d' := by
  induction es generalizing d c msgs with
  | nil =>
      obtain rfl : d = d' := Option.some.inj hexec
      refine ⟨?_, ?_, ?_⟩
      · rfl
      · rw [trace, Server.repliesOn, List.flatMap_nil, List.append_nil]
      · rw [hc]
        simp [turnsOn]
  | cons e es ih =>
      obtain ⟨d₁, hstep, hrest⟩ := Option.bind_eq_some_iff.mp hexec
      have hrestopen : ∀ x ∈ es, ¬ x.Opens fd := fun x hx => hopen x (List.mem_cons_of_mem e hx)
      have hserver := server_step hstep
      -- a turn of the thread of this connection, or an event that leaves it alone
      by_cases hturn : ∃ now, e = .turn fd now
      · obtain ⟨now, rfl⟩ := hturn
        have hone : turnsOn fd [.turn fd now] = 1 := by simp [turnsOn]
        have hasked : d.asked (.turn fd now) = some (.client (askedBy fd now c)) := by
          rw [asked, hc]
        have hturn : d.turn H fd c now = some d₁ := by rwa [step, hc] at hstep
        cases msgs with
        | nil =>
            obtain ⟨d₂, hd₂, hconns, hsame, hsent, hby⟩ := turn_last (H := H) (d := d) h now
            obtain rfl : d₁ = d₂ := Option.some.inj (hturn.symm.trans hd₂)
            -- the thread has ended, so no later event of the run is of this connection
            have hfree : d₁.Free fd := ⟨hconns, by rwa [hsame]⟩
            obtain ⟨hconns', hsent', hturns', hasks', hreplies'⟩ :=
              exec_ended hfree hrestopen hrest
            refine ⟨?_, ?_, ?_⟩
            · rw [trace_cons hstep, hasked, hby, asksOn_append, hasks', List.take_nil]
              rfl
            · rw [trace_cons hstep, hasked, hby, Server.repliesOn_append, hreplies', hsent', hsent]
              simp [Server.repliesOn, Server.replyOn]
            · rw [turnsOn_cons, hone, hturns']
              exact iff_of_true hconns' (Nat.zero_lt_one)
        | cons m msgs =>
            obtain ⟨d₂, hd₂, ⟨c₁, hc₁, h₁⟩, hsame, hsent, hby⟩ :=
              turn_next (H := H) (d := d) fd h now
            obtain rfl : d₁ = d₂ := Option.some.inj (hturn.symm.trans hd₂)
            obtain ⟨hasks', hsent', hended'⟩ := ih hc₁ (by rwa [hsame]) h₁ hrestopen hrest
            refine ⟨?_, ?_, ?_⟩
            · rw [trace_cons hstep, hasked, hby, asksOn_append, hasks', turnsOn_cons, hone,
                Nat.add_comm, List.take_succ_cons, List.map_cons]
              simp [asksOn]
            · have hreply : d.server.repliesOn H fd (d.asked (.turn fd now)).toList =
                  [(c.current.dispatch H d.tracker.state m.type m.payload).reply] := by
                rw [hasked, hby]
                simp [Server.repliesOn, Server.replyOn, sessions_server hc]
                rfl
              rw [trace_cons hstep, Server.repliesOn_append, ← hserver, hsent', hsent, hreply,
                List.flatMap_append, List.flatMap_singleton, List.append_assoc]
            · rw [hended', turnsOn_cons, hone, List.length_cons]
              omega
      · rw [not_exists] at hturn
        have haside := step_other hstep (hopen e List.mem_cons_self) hturn
        have hzero : turnsOn fd [e] = 0 := by
          cases e with
          | turn k now => simpa [turnsOn] using fun h : k = fd => hturn now (by rw [h])
          | accept | dial => rfl
        obtain ⟨hasks', hsent', hended'⟩ :=
          ih (haside.conns.trans hc) (haside.link hlink) h hrestopen hrest
        refine ⟨?_, ?_, ?_⟩
        · rw [trace_cons hstep, asksOn_append, haside.asks, hasks', turnsOn_cons, hzero,
            Nat.zero_add]
          rfl
        · rw [trace_cons hstep, Server.repliesOn_append, haside.replies, ← hserver, hsent',
            haside.sent]
          rfl
        · rw [hended', turnsOn_cons, hzero, Nat.zero_add]

/-- **A conversation over a connection**: a client sends messages and then closes the
connection, or stops inside a frame, or sends no frame. However the calls split the
bytes and whatever happens on the other connections and on the link, the tracker
dispatches the messages as they were sent, one in each turn of the thread, which ends
after the last; and when the client reads, it gets the replies to them, in their
order. -/
theorem conversation (H : Str → Str) {d₀ d d' : Daemon} {fd : ℕ} {ip : Str}
    {hip : ip.length < 2 ^ 32} {msgs : List Msg} {tail : Str} {reads writes : List IoCall}
    {es : List SocketEvent}
    (haccept : d₀.step H (.accept fd ip hip (msgs.flatMap Msg.frame ++ tail) reads writes) = some d)
    (hsize : ∀ m ∈ msgs, m.payload.length ≤ maxPayload) (htail : NoMore tail)
    (hreads : Undisturbed reads) (hwrites : Undisturbed writes)
    (hclient : ∀ m ∈ msgs.head?, m.type ≠ MsgType.syncHello.code)
    (honly : ∀ e ∈ es, ¬ e.Opens fd) (hexec : exec (step H) d es = some d') :
    d'.server = (d.trace H es).foldl (Server.take H) d.server ∧
      asksOn fd (d.trace H es) = (msgs.take (turnsOn fd es)).map (fun m => (m.type, m.payload)) ∧
      (d'.conns fd = none ↔ msgs.length < turnsOn fd es) ∧
      ∀ recvs, Undisturbed recvs →
        (∀ r ∈ d.server.repliesOn H fd (d.trace H es), r.payload.length ≤ maxPayload) →
        recvMsgs (d.server.repliesOn H fd (d.trace H es)).length recvs (d'.sent fd) =
          (d.server.repliesOn H fd (d.trace H es)).map fun r => .message r.header r.payload := by
  rw [step] at haccept
  split at haccept
  · next hfree =>
      obtain rfl := Option.some.inj haccept
      have hsends : Connection.Sends ⟨ip, hip, none, msgs.flatMap Msg.frame ++ tail, reads, writes⟩
          msgs :=
        ⟨⟨tail, rfl, htail⟩, hsize, hreads, hwrites, fun m hm hhello => hclient m hm hhello.2⟩
      have hlink := hfree.2
      obtain ⟨hasks, hsent, hended⟩ := talk (Function.update_self ..) (by exact hlink) hsends honly
        hexec
      refine ⟨server_exec hexec, hasks, hended, fun recvs hrecvs hsmall => ?_⟩
      have hnew : ∀ f : ℕ → Str, Function.update f fd [] fd = [] :=
        fun f => Function.update_self ..
      dsimp only at hsent
      rw [hnew, List.nil_append] at hsent
      obtain ⟨calls, -, hall⟩ := recvMsgs_frames hrecvs hsmall 0 []
      rw [List.append_nil, Nat.add_zero] at hall
      rw [hsent, hall, recvMsgs, List.append_nil]
  · cases haccept

/-- `[1]` registers and logs in. -/
def introducing : List Msg :=
  [⟨MsgType.createUser.code, 0, putStr [1] ++ putStr [2]⟩,
    ⟨MsgType.login.code, 0, putStr [1] ++ putStr [2] ++ putU16 5⟩]

/-- Its bytes arrive in parts, and the calls are interrupted. -/
def accepting : SocketEvent :=
  .accept 7 [4] peerIp_fits (introducing.flatMap Msg.frame) [.upTo 0, .interrupted, .upTo 9]
    [.interrupted, .upTo 1]

/-- Another client sends what is no frame, and the other tracker an op over a link. -/
def disturbing : List SocketEvent :=
  [.accept 8 [6] peerIp_fits (List.replicate 12 0) [] [], .turn 7 0, .turn 8 0,
    .dial 9 (Msg.frame ⟨MsgType.syncOp.code, 0,
      (SyncMsg.op ⟨1, MsgType.createUser.code, putStr [3] ++ putStr [2], 0⟩).payload⟩) [],
    .turn 9 0, .turn 7 0, .turn 7 0]

theorem conversation_introducing :
    let d := (start.step id accepting).get (by decide +kernel)
    let d' := (exec (step id) d disturbing).get (by decide +kernel)
    d'.server = (d.trace id disturbing).foldl (Server.take id) d.server ∧
      asksOn 7 (d.trace id disturbing) = introducing.map (fun m => (m.type, m.payload)) ∧
      d'.conns 7 = none := by
  intro d d'
  have hclient : ∀ m ∈ introducing.head?, m.type ≠ MsgType.syncHello.code := by
    decide +kernel
  have honly : ∀ e ∈ disturbing, ¬ e.Opens 7 := by
    intro e he
    simp only [disturbing, List.mem_cons, List.not_mem_nil, or_false] at he
    rcases he with rfl | rfl | rfl | rfl | rfl | rfl | rfl <;> simp [SocketEvent.Opens]
  have haccept : start.step id (.accept 7 [4] peerIp_fits (introducing.flatMap Msg.frame ++ [])
      [.upTo 0, .interrupted, .upTo 9] [.interrupted, .upTo 1]) = some d := by
    rw [List.append_nil]
    exact (Option.some_get _).symm
  obtain ⟨hserver, hasks, hended, -⟩ := conversation id haccept (by decide +kernel) (.inl rfl)
    (by simp [Undisturbed]) (by simp [Undisturbed]) hclient honly (Option.some_get _).symm
  exact ⟨hserver, hasks, hended.mpr (by decide)⟩

end Daemon

end P2PShare
