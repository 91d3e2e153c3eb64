import P2PShare.Lib.Runs
import P2PShare.Tracker.Server

/-!
What a tracker keeps of a password, compared over two runs that differ in the
password of one user only.

* `Entry`, `Entry.perform`: a script of requests and peer messages in which that
  password is left open, and one entry carried out with a password put in.
* `Alike`: two servers whose states, sessions and sequence numbers are the same;
  every entry keeps it when the hashes agree, as `Alike.perform` says.
* `passwords_as_hashes`: the logs stay the same as well exactly if the
  registration with that password is never carried out, since it is logged as
  received. `password_logged` is a run in which it is.
-/

namespace P2PShare

open Cursor Reader

/-! ### Requests with a password -/

/-- A request that starts with a user id and a password. -/
def credentials (uid pwd rest : Str) : Str := putStr uid ++ (putStr pwd ++ rest)

/-- What stands behind a length and as many bytes is determined. -/
lemma putStr_append_inj {a b x y : Str} (ha : a.length < 2 ^ 32) (hb : b.length < 2 ^ 32)
    (h : putStr a ++ x = putStr b ++ y) : a = b ∧ x = y := by
  have hfst : decode getStr (putStr a ++ x) = some a :=
    (decode_eq_some_iff codec_str).mpr ⟨ha, List.prefix_append _ _⟩
  have hsnd : decode getStr (putStr b ++ y) = some b :=
    (decode_eq_some_iff codec_str).mpr ⟨hb, List.prefix_append _ _⟩
  obtain rfl : a = b := Option.some.inj (hfst.symm.trans (h ▸ hsnd))
  exact ⟨rfl, List.append_cancel_left h⟩

section

variable {uid pwd : Str} (huid : uid.length < 2 ^ 32) (hpwd : pwd.length < 2 ^ 32) (rest : Str)

include huid hpwd

lemma decode_reqCreateUser :
    decode (reqCreateUser (credentials uid pwd rest)) (credentials uid pwd rest) =
      some (.createUser uid pwd, credentials uid pwd rest) := by
  obtain ⟨c₁, hcut₁, hrest₁⟩ := exists_cut (unread_start (credentials uid pwd rest))
  obtain ⟨c₂, hcut₂, -⟩ := exists_cut hrest₁
  refine decode_eq_some.mpr ⟨c₂, ?_⟩
  exact ((codec_str _ _ _).mpr ⟨huid, hcut₁⟩).bind
    (((codec_str _ _ _).mpr ⟨hpwd, hcut₂⟩).bind (reads_pure.mpr ⟨rfl, rfl⟩))

/-- A login is read as it was written, if its port is there. -/
lemma decode_getLogin_iff {a : Str × Str × UInt16} :
    decode getLogin (credentials uid pwd rest) = some a ↔
      ∃ port, a = (uid, pwd, port) ∧ putU16 port <+: rest := by
  rw [decode_eq_some]
  simp only [getLogin, reads_bind, reads_pure, codec_str _ _ _, codec_u16 _ _ _, true_and]
  constructor
  · rintro ⟨c', u, c₁, ⟨hu, hcut₁⟩, w, c₂, ⟨hw, hcut₂⟩, port, c₃, hcut₃, rfl, -⟩
    have hstart := cut_start hcut₁
    rw [credentials, hcut₂.2] at hstart
    obtain ⟨rfl, htail⟩ := putStr_append_inj huid hu hstart
    obtain ⟨rfl, hrest⟩ := putStr_append_inj hpwd hw htail
    exact ⟨port, rfl, c₃.unread, by rw [hrest, hcut₃.2]⟩
  · rintro ⟨port, rfl, tail, htail⟩
    obtain ⟨c₁, hcut₁, hrest₁⟩ := exists_cut (unread_start (credentials uid pwd rest))
    obtain ⟨c₂, hcut₂, hrest₂⟩ := exists_cut hrest₁
    obtain ⟨c₃, hcut₃, -⟩ := exists_cut (hrest₂.trans htail.symm)
    exact ⟨c₃, uid, c₁, ⟨huid, hcut₁⟩, pwd, c₂, ⟨hpwd, hcut₂⟩, port, c₃, hcut₃, rfl, rfl⟩

end

namespace Session

variable {H : Str → Str} {s : TrackerState} {σ : Session}

lemma dispatch_register {uid pwd : Str} (huid : uid.length < 2 ^ 32) (hpwd : pwd.length < 2 ^ 32)
    (rest : Str) :
    dispatch H s σ MsgType.createUser.code (credentials uid pwd rest) =
      let r := s.createUser H uid pwd
      ⟨r.2, σ, if r.1 = .ok then some (MsgType.createUser.code, credentials uid pwd rest) else none,
        r.1, []⟩ := by
  rw [dispatch, MsgType.ofCode_code]
  show mutate H s σ .createUser _ _ = _
  rw [mutate, parsed, decode_reqCreateUser huid hpwd]
  rfl

lemma login_eq {payload uid pwd : Str} {port : UInt16}
    (h : decode getLogin payload = some (uid, pwd, port)) :
    login H s σ payload =
      let r := s.login H uid pwd σ.peerIp port
      ⟨r.2, if r.1 = .ok then σ.asUser uid (length_of_getLogin h) port else σ, none, r.1, []⟩ := by
  rw [login]
  split
  · next hnone => cases hnone.symm.trans h
  · next hsome =>
      cases hsome.symm.trans h
      rfl

end Session

/-! ### Two runs of one script -/

/-- An entry of a script: a client event, a registration or a login with the
password left open, or a message of the peer. -/
inductive Entry
  | connect (fd : ℕ) (ip : Str) (hip : ip.length < 2 ^ 32)
  | request (fd : ℕ) (type : UInt16) (payload : Str)
  | disconnect (fd : ℕ)
  | register (fd : ℕ) (rest : Str)
  | login (fd : ℕ) (rest : Str)
  | message (m : SyncMsg)

/-- The entry with this password of `uid`, at this time. -/
def Entry.perform (H : Str → Str) (uid pwd : Str) (now : UInt64) (sv : Server) : Entry → Server
  | connect fd ip hip => (sv.serve H (.connect fd ip hip)).2
  | request fd type payload => (sv.serve H (.request fd type payload now)).2
  | disconnect fd => (sv.serve H (.disconnect fd)).2
  | register fd rest =>
      (sv.serve H (.request fd MsgType.createUser.code (credentials uid pwd rest) now)).2
  | login fd rest => (sv.serve H (.request fd MsgType.login.code (credentials uid pwd rest) now)).2
  | message m => { sv with tracker := (sv.tracker.process H m).2 }

/-- One entry in both runs, each at its own time. -/
def twinStep (H : Str → Str) (uid pwd pwd' : Str) (x : Server × Server)
    (e : Entry × UInt64 × UInt64) : Option (Server × Server) :=
  some (e.1.perform H uid pwd e.2.1 x.1, e.1.perform H uid pwd' e.2.2 x.2)

/-- An op without its timestamp. -/
def Op.untimed (op : Op) : ℕ × UInt16 × Str := (op.seq, op.type, op.payload)

/-- The states, the snapshots and the logs are equal, timestamps aside. -/
structure SameStores (x : Server × Server) : Prop where
  state : x.1.tracker.state = x.2.tracker.state
  snapshot : x.1.tracker.state.snapshot = x.2.tracker.state.snapshot
  log : x.1.tracker.log.map Op.untimed = x.2.tracker.log.map Op.untimed

/-- **The condition**: the passwords are the same, or this is not a registration of
a new user with the password left open. -/
def Unregistered (uid pwd pwd' : Str) (x : Server × Server) (e : Entry × UInt64 × UInt64) : Prop :=
  pwd = pwd' ∨ match e.1 with
    | .register fd _ => x.1.sessions fd = none ∨ uid = [] ∨ uid ∈ x.1.tracker.state.users
    | .connect .. | .request .. | .disconnect _ | .login .. | .message _ => True

instance (uid pwd pwd' : Str) (x : Server × Server) :
    ∀ e, Decidable (Unregistered uid pwd pwd' x e)
  | (.register .., _) => inferInstanceAs (Decidable (_ = _ ∨ _ = none ∨ uid = [] ∨ _))
  | (.connect .., _) | (.request .., _) | (.disconnect _, _) | (.login .., _) | (.message _, _) =>
      .isTrue (.inr trivial)

/-- Two servers that differ in what their logs contain at most. -/
structure Alike (a b : Server) : Prop where
  state : a.tracker.state = b.tracker.state
  sessions : a.sessions = b.sessions
  nextSeq : a.tracker.nextSeq = b.tracker.nextSeq
  seqs : a.tracker.log.map Op.seq = b.tracker.log.map Op.seq

/-- The logs are equal, timestamps aside. -/
def SameLog (a b : Server) : Prop :=
  a.tracker.log.map Op.untimed = b.tracker.log.map Op.untimed

/-- A server after a request on `fd` with this outcome. -/
def Server.settle (sv : Server) (fd : ℕ) (o : Outcome) (now : UInt64) : Server :=
  let t := { sv.tracker with state := o.state }
  ⟨o.record.elim t fun rep => t.record (t.nextOp rep.1 rep.2 now),
    sv.setSession fd (some o.session)⟩

lemma Server.serve_request_settle {H : Str → Str} {sv : Server} {fd : ℕ} {σ : Session}
    (hσ : sv.sessions fd = some σ) (type : UInt16) (payload : Str) (now : UInt64) :
    (sv.serve H (.request fd type payload now)).2 =
      sv.settle fd (σ.dispatch H sv.tracker.state type payload) now := by
  rw [serve, apply, hσ, settle]
  dsimp only
  cases (σ.dispatch H sv.tracker.state type payload).record with
  | none => rfl
  | some rep => rfl

namespace Alike

variable {H : Str → Str} {a b : Server} {fd : ℕ}

/-- Outcomes that differ in what they record at most. -/
lemma settle (h : Alike a b) {o o' : Outcome} (hstate : o.state = o'.state)
    (hsession : o.session = o'.session) (hrecord : o.record.isSome ↔ o'.record.isSome)
    (now now' : UInt64) : Alike (a.settle fd o now) (b.settle fd o' now') := by
  have hsessions : a.setSession fd (some o.session) = b.setSession fd (some o'.session) := by
    rw [Server.setSession, Server.setSession, h.sessions, hsession]
  obtain ⟨state, session, record, status, payload⟩ := o
  obtain ⟨state', session', record', status', payload'⟩ := o'
  cases record with
  | none =>
      cases record' with
      | none => exact ⟨hstate, hsessions, h.nextSeq, h.seqs⟩
      | some rep' => simp at hrecord
  | some rep =>
      cases record' with
      | none => simp at hrecord
      | some rep' =>
          refine ⟨hstate, hsessions, congrArg (· + 1) h.nextSeq, ?_⟩
          simp [Server.settle, Tracker.record, Tracker.nextOp, h.nextSeq, h.seqs]

/-- Equal logs stay equal where the same is recorded. -/
lemma sameLog_settle_iff (h : Alike a b) (hlog : SameLog a b) {o o' : Outcome}
    (hrecord : o.record.isSome ↔ o'.record.isSome) (now now' : UInt64) :
    SameLog (a.settle fd o now) (b.settle fd o' now') ↔ o.record = o'.record := by
  obtain ⟨state, session, record, status, payload⟩ := o
  obtain ⟨state', session', record', status', payload'⟩ := o'
  cases record with
  | none =>
      cases record' with
      | none => exact iff_of_true hlog rfl
      | some rep' => simp at hrecord
  | some rep =>
      cases record' with
      | none => simp at hrecord
      | some rep' =>
          rw [SameLog] at hlog
          simp [SameLog, Server.settle, Tracker.record, Tracker.nextOp, Op.untimed, h.nextSeq, hlog,
            Prod.ext_iff]

/-- The same request. -/
lemma request (h : Alike a b) (type : UInt16) (payload : Str) (now now' : UInt64) :
    Alike (a.serve H (.request fd type payload now)).2
        (b.serve H (.request fd type payload now')).2 ∧
      (SameLog a b → SameLog (a.serve H (.request fd type payload now)).2
        (b.serve H (.request fd type payload now')).2) := by
  cases hfd : b.sessions fd with
  | none =>
      have hfd' : a.sessions fd = none := by rw [h.sessions, hfd]
      rw [Server.serve_absent hfd (.inl ⟨_, _, _, rfl⟩),
        Server.serve_absent hfd' (.inl ⟨_, _, _, rfl⟩)]
      exact ⟨h, fun hlog => hlog⟩
  | some σ =>
      have hfd' : a.sessions fd = some σ := by rw [h.sessions, hfd]
      rw [Server.serve_request_settle hfd, Server.serve_request_settle hfd', h.state]
      exact ⟨h.settle rfl rfl Iff.rfl now now',
        fun hlog => (h.sameLog_settle_iff hlog Iff.rfl now now').mpr rfl⟩

/-- A connection is accepted or ends. -/
lemma connection (h : Alike a b) {ev : ClientEvent}
    (hev : (∃ ip hip, ev = .connect fd ip hip) ∨ ev = .disconnect fd) :
    Alike (a.serve H ev).2 (b.serve H ev).2 ∧
      (SameLog a b → SameLog (a.serve H ev).2 (b.serve H ev).2) := by
  have hset : ∀ σ, a.setSession fd σ = b.setSession fd σ := fun σ => by
    rw [Server.setSession, Server.setSession, h.sessions]
  rcases hev with ⟨ip, hip, rfl⟩ | rfl
  · rw [Server.serve, Server.serve, Server.apply, Server.apply, h.sessions]
    cases b.sessions fd with
    | none => exact ⟨⟨h.state, hset _, h.nextSeq, h.seqs⟩, fun hlog => hlog⟩
    | some σ => exact ⟨h, fun hlog => hlog⟩
  · rw [Server.serve, Server.serve, Server.apply, Server.apply, h.sessions]
    cases b.sessions fd with
    | none => exact ⟨h, fun hlog => hlog⟩
    | some σ =>
        have hstate : σ.finish a.tracker.state = σ.finish b.tracker.state := by rw [h.state]
        exact ⟨⟨hstate, hset _, h.nextSeq, h.seqs⟩, fun hlog => hlog⟩

/-- The same message of the peer. -/
lemma message (h : Alike a b) (m : SyncMsg) :
    Alike { a with tracker := (a.tracker.process H m).2 }
        { b with tracker := (b.tracker.process H m).2 } ∧
      (SameLog a b → SameLog { a with tracker := (a.tracker.process H m).2 }
        { b with tracker := (b.tracker.process H m).2 }) := by
  cases m with
  | hello | catchup | snapshotRequest => exact ⟨⟨h.state, h.sessions, h.nextSeq, h.seqs⟩, id⟩
  | op op =>
      have hstate :
          (applyRemote H a.tracker.state op).2 = (applyRemote H b.tracker.state op).2 := by
        rw [h.state]
      exact ⟨⟨hstate, h.sessions, h.nextSeq, h.seqs⟩, id⟩
  | snapshotData blob =>
      have hstate : (a.tracker.state.restore blob).2 = (b.tracker.state.restore blob).2 := by
        rw [h.state]
      exact ⟨⟨hstate, h.sessions, h.nextSeq, h.seqs⟩, id⟩
  | ack n =>
      have htrim : ∀ {α : Type} (f : Op → α) (seq : α → ℕ), (∀ op, seq (f op) = op.seq) →
          ∀ log : List Op, (log.dropWhile fun op => op.seq ≤ n).map f =
            (log.map f).dropWhile fun x => seq x ≤ n := by
        intro α f seq hseq log
        rw [List.dropWhile_map]
        simp only [Function.comp_def, hseq]
      refine ⟨⟨h.state, h.sessions, h.nextSeq, ?_⟩, fun hlog => ?_⟩
      · exact (htrim Op.seq id (fun _ => rfl) _).trans
          (h.seqs ▸ (htrim Op.seq id (fun _ => rfl) _).symm)
      · rw [SameLog] at hlog
        exact (htrim Op.untimed Prod.fst (fun _ => rfl) _).trans
          (hlog ▸ (htrim Op.untimed Prod.fst (fun _ => rfl) _).symm)

section

variable {uid pwd pwd' : Str} (huid : uid.length < 2 ^ 32) (hpwd : pwd.length < 2 ^ 32)
  (hlen : pwd.length = pwd'.length) (hne : pwd ≠ []) (hhash : H pwd = H pwd')

include huid hpwd hlen hhash

/-- A login with either password. -/
lemma login (h : Alike a b) (fd : ℕ) (rest : Str) (now now' : UInt64) :
    let run := fun (sv : Server) (w : Str) (t : UInt64) =>
      (sv.serve H (.request fd MsgType.login.code (credentials uid w rest) t)).2
    Alike (run a pwd now) (run b pwd' now') ∧
      (SameLog a b → SameLog (run a pwd now) (run b pwd' now')) := by
  intro run
  have hpwd' : pwd'.length < 2 ^ 32 := hlen ▸ hpwd
  cases hfd : b.sessions fd with
  | none =>
      have hfd' : a.sessions fd = none := by rw [h.sessions, hfd]
      simp only [run]
      rw [Server.serve_absent hfd (.inl ⟨_, _, _, rfl⟩),
        Server.serve_absent hfd' (.inl ⟨_, _, _, rfl⟩)]
      exact ⟨h, fun hlog => hlog⟩
  | some σ =>
      have hfd' : a.sessions fd = some σ := by rw [h.sessions, hfd]
      have hsame : ∀ s : TrackerState, Session.login H s σ (credentials uid pwd rest) =
          Session.login H s σ (credentials uid pwd' rest) := by
        intro s
        by_cases hport : ∃ port, putU16 port <+: rest
        · obtain ⟨port, hport⟩ := hport
          have hcall : s.login H uid pwd σ.peerIp port = s.login H uid pwd' σ.peerIp port := by
            rw [TrackerState.login, TrackerState.login, hhash]
          rw [Session.login_eq ((decode_getLogin_iff huid hpwd rest).mpr ⟨port, rfl, hport⟩),
            Session.login_eq ((decode_getLogin_iff huid hpwd' rest).mpr ⟨port, rfl, hport⟩), hcall]
        · have hnone : ∀ w : Str, w.length < 2 ^ 32 →
              Session.login H s σ (credentials uid w rest) = Session.refuse s σ .malformed := by
            intro w hw
            rw [Session.login]
            split
            · rfl
            · next hsome =>
                obtain ⟨port, -, hpre⟩ := (decode_getLogin_iff huid hw rest).mp hsome
                exact absurd ⟨port, hpre⟩ hport
          rw [hnone pwd hpwd, hnone pwd' hpwd']
      have hdispatch : σ.dispatch H b.tracker.state MsgType.login.code (credentials uid pwd rest) =
          σ.dispatch H b.tracker.state MsgType.login.code (credentials uid pwd' rest) :=
        hsame b.tracker.state
      simp only [run]
      rw [Server.serve_request_settle hfd, Server.serve_request_settle hfd', h.state, hdispatch]
      exact ⟨h.settle rfl rfl Iff.rfl now now',
        fun hlog => (h.sameLog_settle_iff hlog Iff.rfl now now').mpr rfl⟩

include hne

/-- **A registration with either password** makes the logs differ exactly if the
passwords do and the user is new. -/
lemma register (h : Alike a b) (fd : ℕ) (rest : Str) (now now' : UInt64) :
    let run := fun (sv : Server) (w : Str) (t : UInt64) =>
      (sv.serve H (.request fd MsgType.createUser.code (credentials uid w rest) t)).2
    Alike (run a pwd now) (run b pwd' now') ∧
      (SameLog a b → (SameLog (run a pwd now) (run b pwd' now') ↔
        pwd = pwd' ∨ a.sessions fd = none ∨ uid = [] ∨ uid ∈ a.tracker.state.users)) := by
  intro run
  have hpwd' : pwd'.length < 2 ^ 32 := hlen ▸ hpwd
  have hne' : pwd' ≠ [] := fun h => hne (List.length_eq_zero_iff.mp (by rw [hlen, h]; rfl))
  cases hfd : b.sessions fd with
  | none =>
      have hfd' : a.sessions fd = none := by rw [h.sessions, hfd]
      simp only [run]
      rw [Server.serve_absent hfd (.inl ⟨_, _, _, rfl⟩),
        Server.serve_absent hfd' (.inl ⟨_, _, _, rfl⟩)]
      exact ⟨h, fun hlog => iff_of_true hlog (.inr (.inl hfd'))⟩
  | some σ =>
      have hfd' : a.sessions fd = some σ := by rw [h.sessions, hfd]
      have hcall :
          b.tracker.state.createUser H uid pwd' = b.tracker.state.createUser H uid pwd := by
        simp [TrackerState.createUser, hne, hne', hhash]
      -- both passwords are accepted or refused alike
      have hok : (b.tracker.state.createUser H uid pwd).1 = .ok ↔
          ¬ (uid = [] ∨ uid ∈ b.tracker.state.users) := by
        rw [TrackerState.createUser]
        by_cases hu : uid = []
        · simp [hu]
        · by_cases hmem : uid ∈ b.tracker.state.users <;> simp [hu, hmem, hne]
      have hinj : credentials uid pwd rest = credentials uid pwd' rest ↔ pwd = pwd' := by
        refine ⟨fun heq => ?_, fun heq => by rw [heq]⟩
        exact (putStr_append_inj hpwd hpwd' (List.append_cancel_left heq)).1
      simp only [run]
      rw [Server.serve_request_settle hfd, Server.serve_request_settle hfd', h.state,
        Session.dispatch_register huid hpwd, Session.dispatch_register huid hpwd', hcall]
      have hsome : ∀ x y : Str,
          (if (b.tracker.state.createUser H uid pwd).1 = .ok
            then some (MsgType.createUser.code, x) else none).isSome ↔
          (if (b.tracker.state.createUser H uid pwd).1 = .ok
            then some (MsgType.createUser.code, y) else none).isSome := by
        intro x y
        split <;> simp
      refine ⟨h.settle ?_ ?_ (hsome _ _) now now', fun hlog => ?_⟩
      · rfl
      · rfl
      refine (h.sameLog_settle_iff hlog (hsome _ _) now now').trans ?_
      -- a registration that is accepted is logged with its password
      by_cases hst : (b.tracker.state.createUser H uid pwd).1 = .ok
      · have hnew := hok.mp hst
        simp [hst, hinj, hnew, hfd']
      · have hknown := not_not.mp (mt hok.mpr hst)
        simp [hst, hknown]

/-- **The step lemma**: an entry keeps the servers alike, and their logs equal
exactly under the condition. -/
lemma perform (h : Alike a b) (e : Entry × UInt64 × UInt64) :
    Alike (e.1.perform H uid pwd e.2.1 a) (e.1.perform H uid pwd' e.2.2 b) ∧
      (SameLog a b → (SameLog (e.1.perform H uid pwd e.2.1 a) (e.1.perform H uid pwd' e.2.2 b) ↔
        Unregistered uid pwd pwd' (a, b) e)) := by
  obtain ⟨e, now, now'⟩ := e
  have hkept : ∀ {x y : Server}, Alike x y ∧ (SameLog a b → SameLog x y) →
      Alike x y ∧ (SameLog a b → (SameLog x y ↔ pwd = pwd' ∨ True)) :=
    fun hxy => ⟨hxy.1, fun hlog => iff_of_true (hxy.2 hlog) (.inr trivial)⟩
  cases e with
  | connect fd ip hip => exact hkept (h.connection (.inl ⟨ip, hip, rfl⟩))
  | request fd type payload => exact hkept (h.request type payload now now')
  | disconnect fd => exact hkept (h.connection (.inr rfl))
  | register fd rest => exact h.register huid hpwd hlen hne hhash fd rest now now'
  | login fd rest => exact hkept (h.login huid hpwd hlen hhash fd rest now now')
  | message m => exact hkept (h.message m)

end

/-- Alike servers store the same if their logs are equal. -/
lemma sameStores_iff (h : Alike a b) : SameStores (a, b) ↔ SameLog a b :=
  ⟨fun hsame => hsame.log, fun hlog => ⟨h.state, by rw [h.state], hlog⟩⟩

end Alike

/-- The fields of a request that fits a frame fit their lengths. -/
lemma lengths_of_frame {uid pwd : Str} (h : (credentials uid pwd []).length ≤ maxPayload) :
    uid.length < 2 ^ 32 ∧ pwd.length < 2 ^ 32 := by
  have hlt : maxPayload < 2 ^ 32 := by decide
  simp only [credentials, List.length_append, length_putStr] at h
  constructor <;> omega

section

variable {H : Str → Str} {uid pwd pwd' : Str}
  (hframe : (credentials uid pwd []).length ≤ maxPayload) (hlen : pwd.length = pwd'.length)
  (hne : pwd ≠ []) (hhash : H pwd = H pwd')

include hframe hlen hne hhash

/-- The states and snapshots of the two runs are the same. -/
theorem states_as_hashes {x : Server × Server}
    (hrun : Run (twinStep H uid pwd pwd') (fun _ _ => True) (.start, .start) x) :
    x.1.tracker.state = x.2.tracker.state ∧
      x.1.tracker.state.snapshot = x.2.tracker.state.snapshot := by
  obtain ⟨huid, hpwd⟩ := lengths_of_frame hframe
  have halike : Alike x.1 x.2 := by
    refine hrun.invariant (I := fun x => Alike x.1 x.2) ⟨rfl, rfl, rfl, rfl⟩ fun h _ hstep => ?_
    obtain rfl := Option.some.inj hstep
    exact (h.perform huid hpwd hlen hne hhash _).1
  exact ⟨halike.state, by rw [halike.state]⟩

/-- **Passwords live on as hashes only** in runs in which the user is never newly
registered with the password left open: what the two runs store is the same at
every step exactly then, or if the passwords are the same. -/
theorem passwords_as_hashes (script : List (Entry × UInt64 × UInt64)) :
    Throughout (twinStep H uid pwd pwd') SameStores (.start, .start) script ↔
      Meets (twinStep H uid pwd pwd') (Unregistered uid pwd pwd') (.start, .start) script := by
  obtain ⟨huid, hpwd⟩ := lengths_of_frame hframe
  refine throughout_iff_meets (J := fun x => Alike x.1 x.2) (fun {x e} h hsame => ?_)
    ⟨rfl, rfl, rfl, rfl⟩ ⟨rfl, rfl, rfl⟩
  obtain ⟨halike, hlog⟩ := h.perform huid hpwd hlen hne hhash e
  exact ⟨_, rfl, halike, halike.sameStores_iff.trans (hlog hsame.log)⟩

end

/-- The peer has registered the user; a client registers it again and logs in. -/
def knownUser : List (Entry × UInt64 × UInt64) :=
  [(.message (.op ⟨1, MsgType.createUser.code, credentials [8] [2] [], 0⟩), 0, 0),
    (.connect 7 [4] peerIp_fits, 0, 0), (.register 7 [], 5, 6), (.login 7 (putU16 9), 7, 8)]

theorem passwords_as_hashes_known :
    Throughout (twinStep (fun _ => [3]) [8] [1] [2]) SameStores (.start, .start) knownUser := by
  have hmeets : Meets (twinStep (fun _ => [3]) [8] [1] [2]) (Unregistered [8] [1] [2])
      (.start, .start) knownUser := by
    decide +kernel
  exact (passwords_as_hashes (by decide) (by decide) (by decide) (by decide) knownUser).mpr hmeets

/-- **A password in the log**: a user registers, and the request is logged as it
was received. -/
theorem password_logged :
    ∃ (H : Str → Str) (uid pwd pwd' : Str) (script : List (Entry × UInt64 × UInt64)),
      pwd ≠ [] ∧ pwd.length = pwd'.length ∧ H pwd = H pwd' ∧
        ¬ Throughout (twinStep H uid pwd pwd') SameStores (.start, .start) script := by
  refine ⟨fun _ => [3], [8], [1], [2], [(.connect 7 [4] (by decide), 0, 0), (.register 7 [], 0, 0)],
    by decide, rfl, rfl, fun h => ?_⟩
  have hlast : SameStores _ := (h.2 _ rfl).2 _ rfl
  exact absurd hlast.log (by decide +kernel)

end P2PShare
