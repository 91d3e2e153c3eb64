import P2PShare.Tracker.Clash
import P2PShare.Tracker.Payload

/-!
A tracker with its client sessions.

* `Server.apply`: accepting a connection, one request, the end of a session, up
  to `record_and_replicate`; `Server.record` is its locked part, and
  `Server.serve` is one after the other.
* `Applied`, `Did` (**what a client event does to the tracker**): nothing, a
  login, a logout, or one replicated call that succeeds and is recorded.
* `Server.run`: a sequence of events and the ops it records.
-/

namespace P2PShare

open Cursor Reader

namespace Session

/-- The call on the state that a request makes, if any: a login, a logout or one
of the replicated calls. -/
def stateCall (σ : Session) (type : UInt16) (payload : Str) : Option Call :=
  match MsgType.ofCode type with
  | some .login =>
      (decode getLogin payload).map fun (uid, pwd, port) => .login uid pwd σ.peerIp port
  | some .createUser => σ.localCall .createUser payload
  | some .logout => if σ.user = [] then none else some (.logout σ.user)
  | some t => if σ.user = [] then none else σ.localCall t payload
  | none => none

variable {H : Str → Str} {s : TrackerState} {σ : Session} {payload : Str}

/-- The state after a call, if there is one. -/
def afterCall (H : Str → Str) (s : TrackerState) (c : Option Call) : TrackerState :=
  c.elim s (s.after H)

lemma state_mutate {t : MsgType} {g : Get (Call × Str)} (hreq : reqOf σ payload t = some g) :
    (mutate H s σ t payload g).state = afterCall H s (σ.localCall t payload) := by
  have hlocal : σ.localCall t payload = (decode g payload).map Prod.fst := by
    simp [localCall, hreq]
  rw [mutate, parsed, hlocal]
  cases decode g payload with
  | none => rfl
  | some r => rfl

lemma state_loggedIn {o : Outcome} {c : Option Call} (h : o.state = afterCall H s c) :
    (Session.loggedIn s σ o).state = afterCall H s (if σ.user = [] then none else c) := by
  rw [Session.loggedIn]
  split
  · rfl
  · exact h

lemma state_login (H : Str → Str) (s : TrackerState) (σ : Session) (payload : Str) :
    (login H s σ payload).state = afterCall H s ((decode getLogin payload).map
      fun (uid, pwd, port) => .login uid pwd σ.peerIp port) := by
  have hmap : ∀ {o : Option (Str × Str × UInt16)}, decode getLogin payload = o →
      (decode getLogin payload).map (fun (uid, pwd, port) => Call.login uid pwd σ.peerIp port)
        = o.map fun (uid, pwd, port) => Call.login uid pwd σ.peerIp port := fun h => by rw [h]
  rw [login]
  split
  · next h =>
      rw [hmap h]
      rfl
  · next h =>
      rw [hmap h]
      rfl

lemma state_parsed_answer {α : Type} {g : Get α} {k : α → Outcome} (h : ∀ a, (k a).state = s) :
    (parsed s σ g payload k).state = s := by
  rw [parsed]
  split
  · rfl
  · exact h _

/-- **What a request does to the state.** -/
theorem state_dispatch (H : Str → Str) (s : TrackerState) (σ : Session) (type : UInt16)
    (payload : Str) :
    (dispatch H s σ type payload).state = afterCall H s (σ.stateCall type payload) := by
  have hmutate : ∀ {t : MsgType} {g : Get (Call × Str)}, reqOf σ payload t = some g →
      (Session.loggedIn s σ (mutate H s σ t payload g)).state
        = afterCall H s (if σ.user = [] then none else σ.localCall t payload) := fun hreq =>
    state_loggedIn (state_mutate hreq)
  have hread : ∀ {t : MsgType} {o : Outcome}, reqOf σ payload t = none → o.state = s →
      (Session.loggedIn s σ o).state
        = afterCall H s (if σ.user = [] then none else σ.localCall t payload) := by
    intro t o hnone ho
    have hlocal : σ.localCall t payload = none := by simp [localCall, hnone]
    exact state_loggedIn (by rw [hlocal]; exact ho)
  rw [dispatch, stateCall]
  cases MsgType.ofCode type with
  | none => rfl
  | some t =>
      cases t with
      | createUser => exact state_mutate rfl
      | login => exact state_login H s σ payload
      | logout => exact state_loggedIn rfl
      | listGroups => exact hread rfl rfl
      | createGroup => exact hmutate rfl
      | joinGroup => exact hmutate rfl
      | leaveGroup => exact hmutate rfl
      | acceptRequest => exact hmutate rfl
      | uploadFile => exact hmutate rfl
      | stopShare => exact hmutate rfl
      | havePieces => exact hmutate rfl
      | listRequests | listFiles =>
          refine hread rfl (state_parsed_answer fun gid => ?_)
          split <;> rfl
      | getFileMeta =>
          refine hread rfl (state_parsed_answer fun p => ?_)
          obtain ⟨gid, fname⟩ := p
          dsimp only
          split <;> rfl
      | _ => simp [refuse, answer, afterCall, localCall, reqOf]

/-- **What a request is answered with** when it makes a call: the status of the
call. -/
theorem status_dispatch {type : UInt16} {c : Call} (h : σ.stateCall type payload = some c) :
    (dispatch H s σ type payload).status = (s.exec H c).1 := by
  have hmutate : ∀ {t : MsgType} {g : Get (Call × Str)}, reqOf σ payload t = some g →
      σ.localCall t payload = some c → (mutate H s σ t payload g).status = (s.exec H c).1 := by
    intro t g hreq hlocal
    have hmap : (decode g payload).map Prod.fst = some c := by
      rw [← hlocal]
      simp [localCall, hreq]
    obtain ⟨⟨c', rep⟩, hdec, rfl⟩ := Option.map_eq_some_iff.mp hmap
    rw [mutate, parsed, hdec]
  -- but for a registration and a login, only a session with a user asks for a call
  have hguard : ∀ {o : Outcome} {x : Option Call}, (if σ.user = [] then none else x) = some c →
      (x = some c → o.status = (s.exec H c).1) →
      (Session.loggedIn s σ o).status = (s.exec H c).1 := by
    intro o x hx ho
    by_cases huser : σ.user = []
    · simp [huser] at hx
    · rw [Session.loggedIn, if_neg huser]
      exact ho (by simpa [huser] using hx)
  rw [stateCall] at h
  rw [dispatch]
  cases ht : MsgType.ofCode type with
  | none => simp [ht] at h
  | some t =>
      rw [ht] at h
      cases t with
      | createUser => exact hmutate rfl h
      | login =>
          obtain ⟨⟨uid, pwd, port⟩, hdec, rfl⟩ := Option.map_eq_some_iff.mp h
          show (login H s σ payload).status = _
          rw [login]
          split
          · next hnone => simp [hnone] at hdec
          · next uid' pwd' port' hdec' =>
              obtain ⟨rfl, rfl, rfl⟩ : uid' = uid ∧ pwd' = pwd ∧ port' = port := by
                simpa [hdec'] using hdec
              rfl
      | logout => exact hguard h fun hc => by cases hc; rfl
      | createGroup => exact hguard h (hmutate rfl)
      | joinGroup => exact hguard h (hmutate rfl)
      | leaveGroup => exact hguard h (hmutate rfl)
      | acceptRequest => exact hguard h (hmutate rfl)
      | uploadFile => exact hguard h (hmutate rfl)
      | stopShare => exact hguard h (hmutate rfl)
      | havePieces => exact hguard h (hmutate rfl)
      | _ => simp [localCall, reqOf] at h

/-- A login is refused and changes nothing, or it makes the session that of the
user. -/
lemma login_cases (H : Str → Str) (s : TrackerState) (σ : Session) (payload : Str) :
    ((login H s σ payload).state = s ∧ (login H s σ payload).session = σ) ∨
    ∃ uid pwd port u, decode getLogin payload = some (uid, pwd, port) ∧
      s.users[uid]? = some u ∧ u.password = H pwd ∧ (login H s σ payload).session.user = uid ∧
      (login H s σ payload).state =
        { s with users := s.users.insert uid ⟨u.id, u.password, true, σ.peerIp, port⟩ } := by
  rw [login]
  split
  · exact .inl ⟨rfl, rfl⟩
  · next uid pwd port hdec =>
      rcases hexec : s.login H uid pwd σ.peerIp port with ⟨st, s'⟩
      rcases TrackerState.exec_cases (c := .login uid pwd σ.peerIp port) hexec with
        ⟨rfl, hran⟩ | ⟨hne, rfl⟩
      · cases hran with
        | @login _ _ _ _ u hu hpwd =>
            exact .inr ⟨uid, pwd, port, u, hdec, hu, hpwd, by simp [asUser], rfl⟩
      · exact .inl ⟨rfl, by simp [hne]⟩

/-- **What a request does to the session**: apart from a login and a logout,
nothing. -/
theorem session_dispatch {type : UInt16} (hlogin : type ≠ MsgType.login.code)
    (hlogout : type ≠ MsgType.logout.code) : (dispatch H s σ type payload).session = σ := by
  have hloggedIn : ∀ {o : Outcome}, o.session = σ → (Session.loggedIn s σ o).session = σ := by
    intro o ho
    rw [Session.loggedIn]
    split
    · rfl
    · exact ho
  have hparsed : ∀ {α : Type} {g : Get α} {k : α → Outcome}, (∀ a, (k a).session = σ) →
      (parsed s σ g payload k).session = σ := by
    intro α g k hk
    rw [parsed]
    split
    · rfl
    · exact hk _
  have hmutate : ∀ {t : MsgType} {g : Get (Call × Str)}, (mutate H s σ t payload g).session = σ :=
    hparsed fun _ => rfl
  rw [dispatch]
  split
  · exact hmutate
  · next ht => exact absurd (MsgType.eq_code ht) hlogin
  · next ht => exact absurd (MsgType.eq_code ht) hlogout
  · exact hloggedIn rfl
  · exact hloggedIn hmutate
  · exact hloggedIn hmutate
  · exact hloggedIn hmutate
  · refine hloggedIn (hparsed fun gid => ?_)
    split <;> rfl
  · exact hloggedIn hmutate
  · exact hloggedIn hmutate
  · refine hloggedIn (hparsed fun gid => ?_)
    split <;> rfl
  · refine hloggedIn (hparsed fun p => ?_)
    obtain ⟨gid, fname⟩ := p
    dsimp only
    split <;> rfl
  · exact hloggedIn hmutate
  · exact hloggedIn hmutate
  · rfl

/-- A replicated call that a request asks for is of its type. -/
lemma type_of_localCall {t : MsgType} {c : Call} (h : σ.localCall t payload = some c) :
    c.type = t ∧ c.Fits := by
  rw [localCall] at h
  obtain ⟨g, hg, h⟩ := Option.bind_eq_some_iff.mp h
  obtain ⟨⟨c', rep⟩, hdec, rfl⟩ := Option.map_eq_some_iff.mp h
  exact ⟨(recorded_payload hg hdec).1, (recorded_payload hg hdec).2.1⟩

/-- **The call of a request** is of its type, and the session's user may make
it. -/
lemma type_of_stateCall {type : UInt16} {c : Call} (h : σ.stateCall type payload = some c) :
    type = c.type.code ∧ (c.type = .createUser ∨ c.type = .login ∨ σ.user ≠ []) ∧
      (c.type ≠ .login → c.type ≠ .logout → σ.localCall c.type payload = some c) := by
  rw [stateCall] at h
  cases ht : MsgType.ofCode type with
  | none => simp [ht] at h
  | some t =>
      have htype := MsgType.eq_code ht
      rw [ht] at h
      have hguard : ∀ {x : Option Call}, (if σ.user = [] then none else x) = some c →
          σ.user ≠ [] ∧ x = some c := by
        intro x hx
        by_cases huser : σ.user = []
        · simp [huser] at hx
        · exact ⟨huser, by simpa [huser] using hx⟩
      have hmutate : ∀ {t : MsgType}, type = t.code → σ.localCall t payload = some c →
          (t = .createUser ∨ t = .login ∨ σ.user ≠ []) →
          type = c.type.code ∧ (c.type = .createUser ∨ c.type = .login ∨ σ.user ≠ []) ∧
            (c.type ≠ .login → c.type ≠ .logout → σ.localCall c.type payload = some c) := by
        intro t htype hlocal huser
        obtain ⟨rfl, -⟩ := type_of_localCall hlocal
        exact ⟨htype, huser, fun _ _ => hlocal⟩
      cases t with
      | createUser => exact hmutate htype h (.inl rfl)
      | login =>
          obtain ⟨p, -, rfl⟩ := Option.map_eq_some_iff.mp h
          exact ⟨htype, .inr (.inl rfl), fun hne => absurd rfl hne⟩
      | logout =>
          obtain ⟨huser, hc⟩ := hguard h
          obtain rfl := Option.some.inj hc
          exact ⟨htype, .inr (.inr huser), fun _ hne => absurd rfl hne⟩
      | _ => exact hmutate htype (hguard h).2 (.inr (.inr (hguard h).1))

/-- A replicated call of a user who may make it is the call that is made. -/
lemma stateCall_of_localCall {t : MsgType} {c : Call} (huser : t = .createUser ∨ σ.user ≠ [])
    (hlocal : σ.localCall t payload = some c) : σ.stateCall t.code payload = some c := by
  rw [stateCall, MsgType.ofCode_code]
  cases t <;> first | exact hlocal | exact (if_neg (huser.resolve_left (by decide))).trans hlocal |
    cases hlocal

/-- What the end of a session does to the state. -/
lemma state_finish (H : Str → Str) (s : TrackerState) (σ : Session) :
    σ.finish s = afterCall H s (if σ.user = [] then none else some (.logout σ.user)) := by
  rw [finish]
  split <;> rfl

end Session

/-- A tracker and the sessions of its connected clients by descriptor. -/
structure Server where
  tracker : Tracker
  sessions : ℕ → Option Session

/-- What clients do. -/
inductive ClientEvent
  | connect (fd : ℕ) (ip : Str) (hip : ip.length < 2 ^ 32)
  | request (fd : ℕ) (type : UInt16) (payload : Str) (now : UInt64)
  | disconnect (fd : ℕ)

namespace ClientEvent

/-- The request carries no bytes behind its last field. Only requests that can
be decoded have one. -/
def NoTrailing : ClientEvent → Prop
  | request _ type payload _ => ∀ (σ : Session) (t : MsgType), type = t.code →
      (σ.localCall t payload).isSome → Session.trailing t payload = []
  | connect .. | disconnect .. => True

/-- The peer reads from what this request records the call that was made. -/
def Faithful (sv : Server) : ClientEvent → Prop
  | request fd type payload _ => ∀ (σ : Session) (t : MsgType), sv.sessions fd = some σ →
      type = t.code → (σ.localCall t payload).isSome → σ.Unmistakable t payload
  | connect .. | disconnect .. => True

lemma NoTrailing.faithful {ev : ClientEvent} (h : ev.NoTrailing) (sv : Server) :
    ev.Faithful sv := by
  cases ev with
  | request fd type payload now =>
      exact fun σ t _ htype hcall => Session.unmistakable_of_trailing (h σ t htype hcall)
  | connect fd ip hip => trivial
  | disconnect fd => trivial

/-- A request of this type without trailing bytes. -/
lemma noTrailing_request {t : MsgType} {payload : Str} (h : Session.trailing t payload = [])
    (fd : ℕ) (now : UInt64) : NoTrailing (request fd t.code payload now) := by
  intro σ t' htype _
  rw [← MsgType.code_injective htype]
  exact h

/-- The time at which the request is recorded, if it is. -/
def now : ClientEvent → UInt64
  | request _ _ _ now => now
  | connect .. | disconnect .. => 0

/-- The call that the request asks for, if it is one of the replicated ones. -/
def call (sv : Server) : ClientEvent → Option Call
  | request fd type payload _ => do
      let σ ← sv.sessions fd
      let t ← MsgType.ofCode type
      σ.localCall t payload
  | connect .. | disconnect .. => none

/-- The call on the state that the event makes, if any. -/
def stateCall (sv : Server) : ClientEvent → Option Call
  | connect .. => none
  | request fd type payload _ => (sv.sessions fd).bind fun σ => σ.stateCall type payload
  | disconnect fd => (sv.sessions fd).bind fun σ =>
      if σ.user = [] then none else some (.logout σ.user)

/-- The request asks for this call, and the tracker carries it out. -/
def Accepted (H : Str → Str) (sv : Server) (ev : ClientEvent) (c : Call) : Prop :=
  ev.call sv = some c ∧ (sv.tracker.state.exec H c).1 = .ok

/-- The request is one that is replicated, and the tracker carries it out. -/
def Accepts (H : Str → Str) (sv : Server) (ev : ClientEvent) : Prop :=
  ∃ c ∈ ev.call sv, (sv.tracker.state.exec H c).1 = .ok

instance (H : Str → Str) (sv : Server) (ev : ClientEvent) : Decidable (ev.Accepts H sv) :=
  inferInstanceAs (Decidable (∃ _ ∈ _, _))

lemma Accepted.accepts {H : Str → Str} {sv : Server} {ev : ClientEvent} {c : Call}
    (h : ev.Accepted H sv c) : ev.Accepts H sv := ⟨c, h.1, h.2⟩

/-- The event ends a user's time online: a logout or the end of a connection. -/
def EndsSession : ClientEvent → Prop
  | request _ type _ _ => type = MsgType.logout.code
  | disconnect _ => True
  | connect .. => False

end ClientEvent

/-- The operation on the directory that an op performs on the peer. -/
def Op.dirOp (H : Str → Str) (op : Op) : DirOp :=
  match opCall op.type op.payload with
  | none => .nop
  | some c => c.dirOp H

lemma directory_applyRemote (H : Str → Str) (s : TrackerState) (op : Op) :
    (applyRemote H s op).2.directory = s.directory.act (op.dirOp H) := by
  rw [applyRemote, Op.dirOp]
  cases opCall op.type op.payload with
  | none => rfl
  | some c => exact TrackerState.directory_after H s c

/-- An op of the peer keeps a state well formed. -/
lemma TrackerState.WellFormed.applyRemote {H : Str → Str} {s : TrackerState} (hs : s.WellFormed)
    (op : Op) : (P2PShare.applyRemote H s op).2.WellFormed := by
  rcases applyRemote_cases H s op with heq | ⟨c, -, heq⟩
  · rw [heq]
    exact hs
  · rw [heq]
    exact hs.after c

/-- **A snapshot that arrives** is loaded as it was taken. -/
lemma TrackerState.WellFormed.restore {s : TrackerState} (hs : s.WellFormed) (s₀ : TrackerState)
    (hsend : (SyncMsg.snapshotData s.snapshot).Sendable) :
    s₀.restore s.snapshot = (true, s) := by
  have hlt : maxPayload < 2 ^ 32 := by decide
  refine TrackerState.restore_snapshot s s₀ hs.keysMatch
    (TrackerState.fits_of_length_snapshot (lt_of_le_of_lt ?_ hlt))
  exact hsend

/-- Users stay when a message is processed, unless it is a snapshot. -/
lemma mem_users_process {H : Str → Str} {t : Tracker} {m : SyncMsg} {uid : Str}
    (hm : ∀ blob, m ≠ .snapshotData blob) (huid : uid ∈ t.state.users) :
    uid ∈ (t.process H m).2.state.users := by
  cases m with
  | op op =>
      show uid ∈ (applyRemote H t.state op).2.users
      rw [← TrackerState.mem_directory_users, directory_applyRemote] at *
      exact Directory.mem_users_act huid _
  | snapshotData blob => exact absurd rfl (hm blob)
  | hello | catchup | ack | snapshotRequest => exact huid

namespace Server

/-- A tracker that has just started. -/
def start : Server := ⟨.start, fun _ => none⟩

/-- A session table with one entry replaced. -/
def setSession (sv : Server) (fd : ℕ) (σ : Option Session) : ℕ → Option Session :=
  Function.update sv.sessions fd σ

/-- A client event up to the point where `dispatch` returns from the state: what
it passes to `record_and_replicate`, if anything, and the server then.
Descriptors of live connections are not given again, and nothing arrives on
descriptors that are not connected. -/
def apply (H : Str → Str) (sv : Server) : ClientEvent → Option (UInt16 × Str) × Server
  | .connect fd ip hip =>
      match sv.sessions fd with
      | some _ => (none, sv)
      | none => (none, ⟨sv.tracker, sv.setSession fd (some (.start ip hip))⟩)
  | .request fd type payload _ =>
      match sv.sessions fd with
      | none => (none, sv)
      | some σ =>
          let o := σ.dispatch H sv.tracker.state type payload
          (o.record, ⟨{ sv.tracker with state := o.state }, sv.setSession fd (some o.session)⟩)
  | .disconnect fd =>
      match sv.sessions fd with
      | none => (none, sv)
      | some σ =>
          let t := { sv.tracker with state := σ.finish sv.tracker.state }
          (none, ⟨t, sv.setSession fd none⟩)

/-- What a client event does to the state, call by call. -/
lemma state_apply (H : Str → Str) (sv : Server) (ev : ClientEvent) :
    (sv.apply H ev).2.tracker.state = Session.afterCall H sv.tracker.state (ev.stateCall sv) := by
  cases ev with
  | connect fd ip hip =>
      rw [apply]
      split <;> rfl
  | request fd type payload now =>
      rw [apply, ClientEvent.stateCall]
      cases sv.sessions fd with
      | none => rfl
      | some σ => exact Session.state_dispatch H sv.tracker.state σ type payload
  | disconnect fd =>
      rw [apply, ClientEvent.stateCall]
      cases sv.sessions fd with
      | none => rfl
      | some σ => exact Session.state_finish H sv.tracker.state σ

/-- The locked part of `record_and_replicate`: the op it records. -/
def record (sv : Server) (rep : UInt16 × Str) (now : UInt64) : Op × Server :=
  let op := sv.tracker.nextOp rep.1 rep.2 now
  (op, { sv with tracker := sv.tracker.record op })

/-- One client event: the op it records, if any, and the server after it. -/
def serve (H : Str → Str) (sv : Server) (ev : ClientEvent) : Option Op × Server :=
  match sv.apply H ev with
  | (none, sv') => (none, sv')
  | (some rep, sv') =>
      let r := sv'.record rep ev.now
      (some r.1, r.2)

/-- **What a client event does to the state**, and what is recorded for it:
nothing, a login, a logout, or one replicated call that succeeds. -/
inductive Applied (H : Str → Str) (sv : Server) (ev : ClientEvent) :
    Option (UInt16 × Str) → TrackerState → Prop
  | nothing : Applied H sv ev none sv.tracker.state
  | login {uid pwd ip : Str} {port : UInt16} {s' : TrackerState}
      (hran : TrackerState.Ran H sv.tracker.state (.login uid pwd ip port) s') :
      Applied H sv ev none s'
  | logout {uid : Str} {s' : TrackerState} (hends : ev.EndsSession)
      (hran : TrackerState.Ran H sv.tracker.state (.logout uid) s') : Applied H sv ev none s'
  | mutated {c : Call} {rep : Str} {s' : TrackerState} (hacc : ev.Accepted H sv c)
      (hstate : ev.stateCall sv = some c)
      (hran : TrackerState.Ran H sv.tracker.state c s') (hfits : c.Fits)
      (hpeer : ev.Faithful sv → opCall c.type.code rep = some c) :
      Applied H sv ev (some (c.type.code, rep)) s'

/-- Of the tracker, a client event changes the state only. -/
lemma apply_applied (H : Str → Str) (sv : Server) (ev : ClientEvent) :
    ∃ s', Applied H sv ev (sv.apply H ev).1 s' ∧
      (sv.apply H ev).2.tracker = { sv.tracker with state := s' } := by
  cases ev with
  | connect fd ip hip =>
      rw [apply]
      split
      · exact ⟨_, .nothing, rfl⟩
      · exact ⟨_, .nothing, rfl⟩
  | disconnect fd =>
      rw [apply]
      split
      · exact ⟨_, .nothing, rfl⟩
      · next σ hσ =>
          refine ⟨_, ?_, rfl⟩
          rcases Session.finish_cases H sv.tracker.state σ with hran | heq
          · exact .logout trivial hran
          · rw [heq]
            exact .nothing
  | request fd type payload now =>
      rw [apply]
      split
      · exact ⟨_, .nothing, rfl⟩
      · next σ hσ =>
          refine ⟨_, ?_, rfl⟩
          have hserved := Session.dispatch_served H sv.tracker.state σ type payload
          generalize σ.dispatch H sv.tracker.state type payload = o at hserved
          cases hserved with
          | answered => exact .nothing
          | loggedIn hlen hran => exact .login hran
          | loggedOut htype huser hran => exact .logout htype hran
          | gone => exact .nothing
          | @mutated t g c rep s' htype hreq huser hdec hran =>
              -- the op is recorded with the fields that the session appends
              obtain ⟨rfl, hfits, -⟩ := recorded_payload hreq hdec
              subst htype
              have hlocal : σ.localCall c.type payload = some c := by
                simp [Session.localCall, hreq, hdec]
              refine .mutated ⟨by simp [ClientEvent.call, hσ, hlocal], by rw [hran.exec_eq]⟩ ?_ hran
                hfits fun hfaith => ?_
              · simp [ClientEvent.stateCall, hσ, Session.stateCall_of_localCall huser hlocal]
              refine (opCall_recorded hreq hdec).mpr (hfaith σ c.type hσ rfl ?_)
              rw [hlocal]
              rfl

/-- **What a client event does to the tracker.** An event that is `Faithful`
records an op from which the peer reads its call. -/
inductive Did (H : Str → Str) (sv : Server) (ev : ClientEvent) : Option Op → Tracker → Prop
  | nothing : Did H sv ev none sv.tracker
  | login {uid pwd ip : Str} {port : UInt16} {s' : TrackerState}
      (hran : TrackerState.Ran H sv.tracker.state (.login uid pwd ip port) s') :
      Did H sv ev none { sv.tracker with state := s' }
  | logout {uid : Str} {s' : TrackerState} (hends : ev.EndsSession)
      (hran : TrackerState.Ran H sv.tracker.state (.logout uid) s') :
      Did H sv ev none { sv.tracker with state := s' }
  | mutated {c : Call} {op : Op} {s' : TrackerState} (hacc : ev.Accepted H sv c)
      (hran : TrackerState.Ran H sv.tracker.state c s') (hseq : op.seq = sv.tracker.nextSeq)
      (htype : op.type = c.type.code) (hfits : c.Fits)
      (hpeer : ev.Faithful sv → opCall op.type op.payload = some c) :
      Did H sv ev (some op) (Tracker.record { sv.tracker with state := s' } op)

lemma serve_did (H : Str → Str) (sv : Server) (ev : ClientEvent) :
    Did H sv ev (sv.serve H ev).1 (sv.serve H ev).2.tracker := by
  obtain ⟨s', happ, htracker⟩ := apply_applied H sv ev
  rw [serve]
  generalize sv.apply H ev = r at happ htracker
  obtain ⟨o, sv'⟩ := r
  dsimp only at happ htracker ⊢
  cases happ with
  | nothing =>
      rw [htracker]
      exact .nothing
  | login hran =>
      rw [htracker]
      exact .login hran
  | logout hends hran =>
      rw [htracker]
      exact .logout hends hran
  | mutated hacc _ hran hfits hpeer =>
      simp only [record, htracker]
      exact .mutated hacc hran rfl rfl hfits hpeer

namespace Did

variable {H : Str → Str} {sv : Server} {ev : ClientEvent} {o : Option Op} {t : Tracker}

lemma wellFormed (h : Did H sv ev o t) (hs : sv.tracker.state.WellFormed) :
    t.state.WellFormed := by
  cases h with
  | nothing => exact hs
  | login hran => exact hran.wellFormed hs
  | logout _ hran => exact hran.wellFormed hs
  | mutated _ hran => exact hran.wellFormed hs

/-- An event leaves the directory alone or makes one accepted call, which it
records. -/
lemma directory_cases (h : Did H sv ev o t) :
    (o = none ∧ t.state.directory = sv.tracker.state.directory) ∨
    ∃ call op, o = some op ∧ ev.Accepted H sv call ∧
      TrackerState.Ran H sv.tracker.state call t.state ∧
      (ev.Faithful sv → opCall op.type op.payload = some call) := by
  cases h with
  | nothing => exact .inl ⟨rfl, rfl⟩
  | login hran => exact .inl ⟨rfl, hran.directory_eq⟩
  | logout _ hran => exact .inl ⟨rfl, hran.directory_eq⟩
  | mutated hacc hran _ _ _ hpeer => exact .inr ⟨_, _, rfl, hacc, hran, hpeer⟩

/-- Users stay. -/
lemma mem_users (h : Did H sv ev o t) {uid : Str} (huid : uid ∈ sv.tracker.state.users) :
    uid ∈ t.state.users := by
  rw [← TrackerState.mem_directory_users] at huid ⊢
  rcases h.directory_cases with ⟨-, hdir⟩ | ⟨call, op, -, -, hran, -⟩
  · rw [hdir]
    exact huid
  · rw [hran.directory_eq]
    exact Directory.mem_users_act huid _

/-- What an event does to the fields of the `SyncManager`. -/
lemma log_eq (h : Did H sv ev o t) :
    t.appliedPeerSeq = sv.tracker.appliedPeerSeq ∧ t.log = sv.tracker.log ++ o.toList ∧
      t.nextSeq = sv.tracker.nextSeq + o.toList.length ∧
      ∀ op ∈ o, op.seq = sv.tracker.nextSeq ∧ ev.Accepts H sv := by
  cases h with
  | nothing | login | logout => simp
  | mutated hacc _ hseq =>
      refine ⟨rfl, rfl, rfl, fun op hop => ?_⟩
      rw [← Option.some.inj hop]
      exact ⟨hseq, hacc.accepts⟩

end Did

variable {H : Str → Str} {sv : Server}

/-! ### What an event does to the state and the sessions -/

/-- Recording touches neither the state nor the sessions. -/
lemma serve_eq_apply (H : Str → Str) (sv : Server) (ev : ClientEvent) :
    (sv.serve H ev).2.tracker.state = (sv.apply H ev).2.tracker.state ∧
      (sv.serve H ev).2.sessions = (sv.apply H ev).2.sessions := by
  rw [serve]
  rcases sv.apply H ev with ⟨_ | rep, sv'⟩
  · exact ⟨rfl, rfl⟩
  · exact ⟨rfl, rfl⟩

lemma serve_connect {fd : ℕ} (ip : Str) (hip : ip.length < 2 ^ 32) :
    (sv.serve H (.connect fd ip hip)).2.tracker.state = sv.tracker.state ∧
      ((sv.serve H (.connect fd ip hip)).2.sessions = sv.sessions ∨
        sv.sessions fd = none ∧ (sv.serve H (.connect fd ip hip)).2.sessions =
          sv.setSession fd (some (.start ip hip))) := by
  obtain ⟨hstate, hsessions⟩ := serve_eq_apply H sv (.connect fd ip hip)
  rw [hstate, hsessions, apply]
  cases hfd : sv.sessions fd with
  | none => exact ⟨rfl, .inr ⟨rfl, rfl⟩⟩
  | some σ => exact ⟨rfl, .inl rfl⟩

lemma serve_request {fd : ℕ} {σ : Session} (hσ : sv.sessions fd = some σ) (type : UInt16)
    (payload : Str) (now : UInt64) :
    (sv.serve H (.request fd type payload now)).2.tracker.state =
        (σ.dispatch H sv.tracker.state type payload).state ∧
      (sv.serve H (.request fd type payload now)).2.sessions =
        sv.setSession fd (some (σ.dispatch H sv.tracker.state type payload).session) := by
  obtain ⟨hstate, hsessions⟩ := serve_eq_apply H sv (.request fd type payload now)
  rw [hstate, hsessions, apply, hσ]
  exact ⟨rfl, rfl⟩

lemma serve_disconnect {fd : ℕ} {σ : Session} (hσ : sv.sessions fd = some σ) :
    (sv.serve H (.disconnect fd)).2.tracker.state = σ.finish sv.tracker.state ∧
      (sv.serve H (.disconnect fd)).2.sessions = sv.setSession fd none := by
  obtain ⟨hstate, hsessions⟩ := serve_eq_apply H sv (.disconnect fd)
  rw [hstate, hsessions, apply, hσ]
  exact ⟨rfl, rfl⟩

/-- Nothing arrives on a descriptor that is not connected. -/
lemma serve_absent_eq {fd : ℕ} (hfd : sv.sessions fd = none) {ev : ClientEvent}
    (hev : (∃ type payload now, ev = .request fd type payload now) ∨ ev = .disconnect fd) :
    sv.serve H ev = (none, sv) := by
  rcases hev with ⟨type, payload, now, rfl⟩ | rfl
  · rw [serve, apply, hfd]
  · rw [serve, apply, hfd]

lemma serve_absent {fd : ℕ} (hfd : sv.sessions fd = none) {ev : ClientEvent}
    (hev : (∃ type payload now, ev = .request fd type payload now) ∨ ev = .disconnect fd) :
    (sv.serve H ev).2 = sv := by
  rw [serve_absent_eq hfd hev]

/-- A sequence of client events: the ops they record, in order, and the server
after them. -/
def run (H : Str → Str) (sv : Server) : List ClientEvent → List Op × Server
  | [] => ([], sv)
  | ev :: evs =>
      let r := sv.serve H ev
      let rest := run H r.2 evs
      (r.1.toList ++ rest.1, rest.2)

end Server

end P2PShare
