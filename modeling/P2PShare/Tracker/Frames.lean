import P2PShare.Lib.Runs
import P2PShare.Tracker.Server

/-!
How long the frames are that a tracker sends, against the limit of `recv_msg`.

* `TrackerState.bytes`, `FileMeta.replyBytes`, …: what the records of a state
  take on the wire; `length_snapshot` and the lemmas beside it say that the
  encoders write that much.
* `Ask`: what makes a tracker send; `Server.frames` are the payloads it sends
  then, and `Server.sent` those of a run.
* `Small` (**when they fit**) and `sent_fit_iff`: every payload of a run is short
  enough to be received exactly when every `Ask` is `Small` when its turn comes.
-/

namespace P2PShare

open Cursor Reader

/-! ### What the records take -/

/-- The bytes of a string with its length. -/
def strBytes (s : Str) : ℕ := 4 + s.length

/-- The bytes of a collection with its count. -/
def countedBytes {α : Type} (size : α → ℕ) (as : List α) : ℕ := 4 + (as.map size).sum

lemma length_putCounted {α : Type} {put : α → Str} {size : α → ℕ}
    (h : ∀ a, (put a).length = size a) (as : List α) :
    (putCounted put as).length = countedBytes size as := by
  have hmap : (fun a => (put a).length) = size := funext h
  simp [putCounted, countedBytes, List.length_flatMap, hmap]

lemma length_putStrs (as : List Str) : (putCounted putStr as).length = countedBytes strBytes as :=
  length_putCounted length_putStr as

/-- The bytes of a seeder entry. -/
def PeerRef.bytes (pr : PeerRef) : ℕ := 14 + pr.userId.length + pr.ip.length + pr.bitfield.length

lemma length_putPeerRef (pr : PeerRef) : (putPeerRef pr).length = pr.bytes := by
  simp only [putPeerRef, List.length_append, length_putStr, length_putU16, length_putBits,
    PeerRef.bytes]
  omega

/-- The bytes of a file in the reply to `MSG_GET_FILE_META`. -/
def FileMeta.replyBytes (fm : FileMeta) : ℕ :=
  12 + fm.fileHash.length + countedBytes strBytes fm.pieceHashes +
    countedBytes PeerRef.bytes (fm.seeders.toList.map Prod.snd)

lemma length_putMeta (fm : FileMeta) : (Session.putMeta fm).length = fm.replyBytes := by
  simp only [Session.putMeta, List.length_append, length_putU64, length_putStr, length_putStrs,
    length_putCounted length_putPeerRef, FileMeta.replyBytes]
  omega

/-- The bytes of a file in a snapshot: its name comes first. -/
def FileMeta.bytes (fm : FileMeta) : ℕ := strBytes fm.name + fm.replyBytes

lemma length_putFileMeta (fm : FileMeta) : (putFileMeta fm).length = fm.bytes := by
  have hmeta : putFileMeta fm = putStr fm.name ++ Session.putMeta fm := by
    simp [putFileMeta, Session.putMeta]
  rw [hmeta, List.length_append, length_putStr, length_putMeta]
  rfl

/-- The bytes of a group. -/
def Group.bytes (grp : Group) : ℕ :=
  8 + grp.id.length + grp.owner.length + countedBytes strBytes grp.members.toList +
    countedBytes strBytes grp.pending.toList +
    countedBytes FileMeta.bytes (grp.files.toList.map Prod.snd)

lemma length_putGroup (grp : Group) : (putGroup grp).length = grp.bytes := by
  simp only [putGroup, List.length_append, length_putStr, length_putStrs,
    length_putCounted length_putFileMeta, Group.bytes]
  omega

/-- The bytes of a user. -/
def User.bytes (u : User) : ℕ := 15 + u.id.length + u.password.length + u.ip.length

lemma length_putUser (u : User) : (putUser u).length = u.bytes := by
  simp only [putUser, List.length_append, length_putStr, length_putU8, length_putU16, User.bytes]
  omega

/-- The bytes of a state. -/
def TrackerState.bytes (s : TrackerState) : ℕ :=
  countedBytes User.bytes (s.users.toList.map Prod.snd) +
    countedBytes Group.bytes (s.groups.toList.map Prod.snd)

lemma TrackerState.length_snapshot (s : TrackerState) : s.snapshot.length = s.bytes := by
  rw [snapshot, List.length_append, length_putCounted length_putUser,
    length_putCounted length_putGroup]
  rfl

/-! ### What an op takes -/

/-- The bytes that are recorded for a call. A request that is recorded as it was
received keeps its own length, and the session's fields come on top. -/
def Call.recordBytes (payload : Str) : Call → ℕ
  | createUser .. => payload.length
  | createGroup gid uid | joinGroup gid uid | leaveGroup gid uid => 8 + gid.length + uid.length
  | acceptRequest gid owner uid => 12 + gid.length + owner.length + uid.length
  | addFile _ uid ip _ _ => payload.length + 10 + uid.length + ip.length
  | stopShare _ uid _ => payload.length + 4 + uid.length
  | updateBitfield _ uid ip _ _ _ => payload.length + 10 + uid.length + ip.length
  | login .. | logout .. => 0

lemma length_putSeeder (uid ip : Str) (port : UInt16) :
    (putSeeder uid ip port).length = 10 + uid.length + ip.length := by
  simp only [putSeeder, List.length_append, length_putStr, length_putU16]
  omega

lemma length_recorded {σ : Session} {payload rep : Str} {t : MsgType} {g : Get (Call × Str)}
    {c : Call} (hreq : reqOf σ payload t = some g) (hdec : decode g payload = some (c, rep)) :
    rep.length = c.recordBytes payload := by
  cases t <;> cases hreq
  case createUser =>
    obtain ⟨c', hread⟩ := decode_eq_some.mp hdec
    simp only [reqCreateUser, reads_bind, reads_pure] at hread
    obtain ⟨_, _, -, _, _, -, heq, -⟩ := hread
    cases heq
    rfl
  case acceptRequest =>
    obtain ⟨c', hread⟩ := decode_eq_some.mp hdec
    simp only [reqAcceptRequest, reads_bind, reads_pure] at hread
    obtain ⟨_, _, -, _, _, -, heq, -⟩ := hread
    cases heq
    simp only [List.length_append, length_putStr, Call.recordBytes]
    omega
  all_goals
    obtain ⟨a, -, heq⟩ := decode_bind_pure hdec
    cases heq
    simp only [List.length_append, length_putStr, length_putSeeder, Call.recordBytes]
    omega

/-- An op frame: three numbers and the length of the payload in front of it. -/
lemma length_opFrame (op : Op) : (SyncMsg.op op).payload.length = 22 + op.payload.length := by
  simp only [SyncMsg.payload, SyncMsg.putSeq, List.length_append, length_putU64, length_putU16,
    length_putStr]
  omega

/-! ### What a reply takes -/

namespace Session

/-- The bytes of the reply to a request: only the lists and the metadata of a
file have a payload. -/
def replyBytes (s : TrackerState) (σ : Session) (type : UInt16) (payload : Str) : ℕ :=
  if σ.user = [] then 0
  else match MsgType.ofCode type with
    | some .listGroups => countedBytes strBytes s.listGroups
    | some .listRequests =>
        (decode getStr payload).elim 0 fun gid => match s.listRequests gid σ.user with
          | (.ok, pending) => countedBytes strBytes pending
          | _ => 0
    | some .listFiles =>
        (decode getStr payload).elim 0 fun gid => match s.listFiles gid σ.user with
          | (.ok, names) => countedBytes strBytes names
          | _ => 0
    | some .getFileMeta =>
        (decode getShare payload).elim 0 fun (gid, fname) => match s.getFile gid σ.user fname with
          | (.ok, some fm) => fm.replyBytes
          | _ => 0
    | _ => 0

variable {H : Str → Str} {s : TrackerState} {σ : Session} {payload : Str}

lemma length_loggedIn {o : Outcome} {n : ℕ} (h : o.payload.length = n) :
    (Session.loggedIn s σ o).payload.length = if σ.user = [] then 0 else n := by
  rw [Session.loggedIn]
  split
  · rfl
  · exact h

lemma length_parsed {α : Type} {g : Get α} {k : α → Outcome} {size : α → ℕ}
    (h : ∀ a, (k a).payload.length = size a) :
    (parsed s σ g payload k).payload.length = (decode g payload).elim 0 size := by
  rw [parsed]
  cases decode g payload with
  | none => rfl
  | some a => exact h a

lemma length_mutate {t : MsgType} {g : Get (Call × Str)} :
    (mutate H s σ t payload g).payload.length = 0 := by
  rw [mutate, parsed]
  split <;> rfl

/-- **A reply takes that much.** -/
lemma length_dispatch (H : Str → Str) (s : TrackerState) (σ : Session) (type : UInt16)
    (payload : Str) :
    (dispatch H s σ type payload).payload.length = replyBytes s σ type payload := by
  have hmutate : ∀ {t : MsgType} {g : Get (Call × Str)},
      (Session.loggedIn s σ (mutate H s σ t payload g)).payload.length =
        if σ.user = [] then 0 else 0 := length_loggedIn length_mutate
  rw [dispatch, replyBytes]
  cases MsgType.ofCode type with
  | none => exact (ite_self 0).symm
  | some t =>
      cases t with
      | createUser => exact length_mutate.trans (ite_self 0).symm
      | login =>
          refine Eq.trans ?_ (ite_self 0).symm
          show (login H s σ payload).payload.length = 0
          rw [login]
          split <;> rfl
      | logout => exact length_loggedIn rfl
      | listGroups => exact length_loggedIn (length_putStrs _)
      | listRequests =>
          refine length_loggedIn (length_parsed fun gid => ?_)
          rcases s.listRequests gid σ.user with ⟨st, ids⟩
          cases st <;> first | exact length_putStrs ids | rfl
      | listFiles =>
          refine length_loggedIn (length_parsed fun gid => ?_)
          rcases s.listFiles gid σ.user with ⟨st, ids⟩
          cases st <;> first | exact length_putStrs ids | rfl
      | getFileMeta =>
          refine length_loggedIn (length_parsed fun p => ?_)
          obtain ⟨gid, fname⟩ := p
          dsimp only
          rcases s.getFile gid σ.user fname with ⟨st, _ | fm⟩
          · cases st <;> rfl
          · cases st <;> first | exact length_putMeta fm | rfl
      | createGroup | joinGroup | leaveGroup | acceptRequest | uploadFile | stopShare
        | havePieces => exact hmutate
      | _ => exact (ite_self 0).symm

/-! ### What a request makes recorded -/

/-- The length of what is recorded for a call, if it is carried out and
replicated. -/
def recordedBytes (H : Str → Str) (s : TrackerState) (payload : Str) (c : Option Call) :
    Option ℕ :=
  c.bind fun c =>
    if (s.exec H c).1 = .ok ∧ c.type ≠ .login ∧ c.type ≠ .logout then some (c.recordBytes payload)
    else none

lemma record_mutate {t : MsgType} {g : Get (Call × Str)} (hreq : reqOf σ payload t = some g) :
    (mutate H s σ t payload g).record.map (fun r => r.2.length) =
      recordedBytes H s payload (σ.localCall t payload) := by
  have hlocal : σ.localCall t payload = (decode g payload).map Prod.fst := by
    simp [localCall, hreq]
  rw [mutate, parsed, hlocal]
  cases hdec : decode g payload with
  | none => rfl
  | some r =>
      obtain ⟨c, rep⟩ := r
      obtain ⟨rfl, -⟩ := recorded_payload hreq hdec
      have hlogin : c.type ≠ .login := fun h => by simp [h, reqOf] at hreq
      have hlogout : c.type ≠ .logout := fun h => by simp [h, reqOf] at hreq
      by_cases hok : (s.exec H c).1 = .ok
      · simp [recordedBytes, hok, hlogin, hlogout, length_recorded hreq hdec]
      · simp [recordedBytes, hok]

lemma record_loggedIn {o : Outcome} {c : Option Call}
    (h : o.record.map (fun r => r.2.length) = recordedBytes H s payload c) :
    (Session.loggedIn s σ o).record.map (fun r => r.2.length) =
      recordedBytes H s payload (if σ.user = [] then none else c) := by
  rw [Session.loggedIn]
  split
  · rfl
  · exact h

lemma record_parsed {α : Type} {g : Get α} {k : α → Outcome} (h : ∀ a, (k a).record = none) :
    (parsed s σ g payload k).record = none := by
  rw [parsed]
  split
  · rfl
  · exact h _

/-- **What is recorded** takes that much. -/
lemma record_dispatch (H : Str → Str) (s : TrackerState) (σ : Session) (type : UInt16)
    (payload : Str) :
    (dispatch H s σ type payload).record.map (fun r => r.2.length) =
      recordedBytes H s payload (σ.stateCall type payload) := by
  have hmutate : ∀ {t : MsgType} {g : Get (Call × Str)}, reqOf σ payload t = some g →
      (Session.loggedIn s σ (mutate H s σ t payload g)).record.map (fun r => r.2.length) =
        recordedBytes H s payload (if σ.user = [] then none else σ.localCall t payload) :=
    fun hreq => record_loggedIn (record_mutate hreq)
  -- a request that only reads is not recorded
  have hread : ∀ {t : MsgType} {o : Outcome}, reqOf σ payload t = none → o.record = none →
      (Session.loggedIn s σ o).record.map (fun r => r.2.length) =
        recordedBytes H s payload (if σ.user = [] then none else σ.localCall t payload) := by
    intro t o hnone ho
    have hlocal : σ.localCall t payload = none := by simp [localCall, hnone]
    exact record_loggedIn (by rw [hlocal, ho]; rfl)
  rw [dispatch, stateCall]
  cases MsgType.ofCode type with
  | none => rfl
  | some t =>
      cases t with
      | createUser => exact record_mutate rfl
      | login =>
          have hnone : (login H s σ payload).record = none := by
            rw [login]
            split <;> rfl
          show (login H s σ payload).record.map _ = _
          rw [hnone]
          cases decode getLogin payload with
          | none => rfl
          | some p => simp [recordedBytes, Call.type]
      | logout =>
          refine record_loggedIn ?_
          simp [logout, recordedBytes, Call.type]
      | listGroups => exact hread rfl rfl
      | createGroup => exact hmutate rfl
      | joinGroup => exact hmutate rfl
      | leaveGroup => exact hmutate rfl
      | acceptRequest => exact hmutate rfl
      | uploadFile => exact hmutate rfl
      | stopShare => exact hmutate rfl
      | havePieces => exact hmutate rfl
      | listRequests | listFiles =>
          refine hread rfl (record_parsed fun gid => ?_)
          split <;> rfl
      | getFileMeta =>
          refine hread rfl (record_parsed fun p => ?_)
          obtain ⟨gid, fname⟩ := p
          dsimp only
          split <;> rfl
      | _ => simp [refuse, answer, recordedBytes, localCall, reqOf]

end Session

/-! ### What a tracker sends -/

/-- What makes a tracker send: a client, or the peer that asks for a snapshot. -/
inductive Ask
  | client (ev : ClientEvent)
  | snapshot

namespace Ask

/-- A request is one whose frame `recv_msg` accepts. -/
def Received : Ask → Prop
  | client (.request _ _ payload _) => payload.length ≤ maxPayload
  | _ => True

/-- **What is sent fits**: the op of a request that is carried out and the reply to
a request are within the limit, and so is the state of which a snapshot is asked. -/
def Small (H : Str → Str) (sv : Server) : Ask → Prop
  | client (.request fd type payload _) => ∀ σ ∈ sv.sessions fd,
      (∀ c ∈ σ.stateCall type payload, (sv.tracker.state.exec H c).1 = .ok →
        22 + c.recordBytes payload ≤ maxPayload) ∧
      σ.replyBytes sv.tracker.state type payload ≤ maxPayload
  | client _ => True
  | snapshot => sv.tracker.state.bytes ≤ maxPayload

end Ask

namespace Server

variable {H : Str → Str} {sv : Server}

/-- The reply to a request. -/
def reply (H : Str → Str) (sv : Server) : ClientEvent → Option Str
  | .request fd type payload _ => (sv.sessions fd).map fun σ =>
      (σ.dispatch H sv.tracker.state type payload).payload
  | .connect .. | .disconnect _ => none

/-- The payloads that are sent. The op of a request is sent now or on the next
catch-up. -/
def frames (H : Str → Str) (sv : Server) : Ask → List Str
  | .client ev =>
      (sv.reply H ev).toList ++ ((sv.serve H ev).1.map fun op => (SyncMsg.op op).payload).toList
  | .snapshot => (sv.tracker.process H .snapshotRequest).1.map SyncMsg.payload

/-- The server afterwards. -/
def next (H : Str → Str) (sv : Server) : Ask → Server
  | .client ev => (sv.serve H ev).2
  | .snapshot => sv

/-- The payloads that are sent in a run. -/
def sent (H : Str → Str) (sv : Server) : List Ask → List Str
  | [] => []
  | a :: asks => sv.frames H a ++ sent H (sv.next H a) asks

/-- Connections come and go without a frame. -/
lemma frames_of_ne_request {ev : ClientEvent} (h : ∀ fd type payload now,
    ev ≠ .request fd type payload now) : sv.frames H (.client ev) = [] := by
  cases ev with
  | request fd type payload now => exact absurd rfl (h fd type payload now)
  | connect fd ip hip =>
      have hnone : (sv.serve H (.connect fd ip hip)).1 = none := by
        rw [serve, apply]
        cases sv.sessions fd <;> rfl
      rw [frames, hnone]
      rfl
  | disconnect fd =>
      have hnone : (sv.serve H (.disconnect fd)).1 = none := by
        rw [serve, apply]
        cases sv.sessions fd <;> rfl
      rw [frames, hnone]
      rfl

/-- The frames of a request: the reply and the op, if one is recorded. -/
lemma frames_request {fd : ℕ} {σ : Session} (hσ : sv.sessions fd = some σ) (type : UInt16)
    (payload : Str) (now : UInt64) :
    (∀ f ∈ sv.frames H (.client (.request fd type payload now)), f.length ≤ maxPayload) ↔
      (∀ n ∈ Session.recordedBytes H sv.tracker.state payload (σ.stateCall type payload),
        22 + n ≤ maxPayload) ∧ σ.replyBytes sv.tracker.state type payload ≤ maxPayload := by
  have hop : (sv.serve H (.request fd type payload now)).1 =
      (σ.dispatch H sv.tracker.state type payload).record.map fun rep =>
        ⟨sv.tracker.nextSeq, rep.1, rep.2, now⟩ := by
    rw [serve, apply, hσ]
    dsimp only
    cases (σ.dispatch H sv.tracker.state type payload).record <;> rfl
  rw [frames, reply, hσ, hop, ← Session.record_dispatch, ← Session.length_dispatch H]
  cases (σ.dispatch H sv.tracker.state type payload).record with
  | none => simp
  | some rep => simp [length_opFrame, and_comm]

/-- **What an `Ask` makes the tracker send fits** exactly when the `Ask` is small. -/
lemma frames_fit_iff (H : Str → Str) (sv : Server) (a : Ask) :
    (∀ f ∈ sv.frames H a, f.length ≤ maxPayload) ↔ a.Small H sv := by
  cases a with
  | snapshot =>
      simp only [frames, Tracker.process, List.map_cons, List.map_nil, List.mem_singleton,
        forall_eq, SyncMsg.payload, TrackerState.length_snapshot]
      rfl
  | client ev =>
      cases ev with
      | connect fd ip hip => simp [frames_of_ne_request, Ask.Small]
      | disconnect fd => simp [frames_of_ne_request, Ask.Small]
      | request fd type payload now =>
          cases hσ : sv.sessions fd with
          | none =>
              have hnone : (sv.serve H (.request fd type payload now)).1 = none := by
                rw [serve, apply, hσ]
              simp [frames, reply, hσ, hnone, Ask.Small]
          | some σ =>
              rw [frames_request hσ, Ask.Small, hσ]
              simp only [Option.mem_some_iff, forall_eq']
              refine and_congr_left fun _ => ?_
              cases σ.stateCall type payload with
              | none => simp [Session.recordedBytes]
              | some c =>
                  have hzero : ¬(c.type ≠ .login ∧ c.type ≠ .logout) →
                      c.recordBytes payload = 0 := by
                    cases c <;> simp [Call.type, Call.recordBytes]
                  have hmax : 22 ≤ maxPayload := by decide
                  simp only [Session.recordedBytes, Option.bind_some, Option.mem_some_iff,
                    forall_eq']
                  by_cases hok : (sv.tracker.state.exec H c).1 = .ok
                  · by_cases hrep : c.type ≠ .login ∧ c.type ≠ .logout
                    · simp [hok, hrep]
                    · simp [hok, hrep, hzero hrep, hmax]
                  · simp [hok]

/-- **The frames of a run can all be received** exactly when what each step makes
the tracker send is small. -/
theorem sent_fit_iff (H : Str → Str) (asks : List Ask) :
    (∀ f ∈ sent H start asks, f.length ≤ maxPayload) ↔
      Meets (fun sv a => some (sv.next H a)) (fun sv a => a.Small H sv) start asks := by
  generalize start = sv
  induction asks generalizing sv with
  | nil => simp [sent, Meets]
  | cons a asks ih =>
      calc (∀ f ∈ sent H sv (a :: asks), f.length ≤ maxPayload)
          ↔ (∀ f ∈ sv.frames H a, f.length ≤ maxPayload) ∧
              ∀ f ∈ sent H (sv.next H a) asks, f.length ≤ maxPayload := by
            rw [sent, List.forall_mem_append]
        _ ↔ a.Small H sv ∧ Meets (fun sv a => some (sv.next H a)) (fun sv a => a.Small H sv)
              (sv.next H a) asks := by
            rw [frames_fit_iff, ih]
        _ ↔ Meets (fun sv a => some (sv.next H a)) (fun sv a => a.Small H sv) sv (a :: asks) := by
            simp [Meets]

/-- A registration is decoded. -/
lemma localCall_createUser (σ : Session) {uid pwd : Str} (huid : uid.length < 2 ^ 32)
    (hpwd : pwd.length < 2 ^ 32) :
    σ.localCall .createUser (putStr uid ++ putStr pwd) = some (.createUser uid pwd) := by
  obtain ⟨c₁, hcut₁, hrest₁⟩ := exists_cut (c := Cursor.start (putStr uid ++ putStr pwd)) rfl
  obtain ⟨c₂, hcut₂, -⟩ := exists_cut (hrest₁.trans (List.append_nil _).symm)
  have hdec : decode (reqCreateUser (putStr uid ++ putStr pwd)) (putStr uid ++ putStr pwd) =
      some (.createUser uid pwd, putStr uid ++ putStr pwd) := by
    refine decode_eq_some.mpr ⟨c₂, ?_⟩
    simp only [reqCreateUser, reads_bind, reads_pure, codec_str _ _ _]
    exact ⟨uid, c₁, ⟨huid, hcut₁⟩, pwd, c₂, ⟨hpwd, hcut₂⟩, rfl, rfl⟩
  show (decode (reqCreateUser _) _).map Prod.fst = _
  rw [hdec]
  rfl

/-- **A request that just fits** is recorded as an op that does not fit: a
registration with a password that fills the frame. -/
theorem op_too_long :
    ∃ asks : List Ask, (∀ a ∈ asks, a.Received) ∧
      ∃ f ∈ sent id start asks, maxPayload < f.length := by
  have hmax : maxPayload = 532480 := by decide
  obtain ⟨pwd, hpwd⟩ : ∃ pwd : Str, pwd.length = maxPayload - 9 :=
    ⟨List.replicate (maxPayload - 9) 2, List.length_replicate⟩
  let σ : Session := .start [4] (by decide)
  let sv := (start.serve id (.connect 7 [4] (by decide))).2
  let longest : ClientEvent := .request 7 MsgType.createUser.code (putStr [8] ++ putStr pwd) 0
  have hσ : sv.sessions 7 = some σ := rfl
  have hlen : (putStr [8] ++ putStr pwd).length = maxPayload := by
    simp only [List.length_append, length_putStr, hpwd, List.length_singleton]
    omega
  have hcall : σ.stateCall MsgType.createUser.code (putStr [8] ++ putStr pwd) =
      some (.createUser [8] pwd) := localCall_createUser σ (by decide) (by omega)
  have hok : (sv.tracker.state.exec id (.createUser [8] pwd)).1 = .ok := by
    have hnew : ([8] : Str) ∉ sv.tracker.state.users := by decide
    have hne : pwd ≠ [] := by
      rintro rfl
      simp [hmax] at hpwd
    simp [TrackerState.exec, TrackerState.createUser, hnew, hne]
  have hlong : ¬ (Ask.client longest).Small id sv := by
    intro hsmall
    have h := (hsmall σ hσ).1 _ hcall hok
    rw [Call.recordBytes, hlen] at h
    omega
  rw [← frames_fit_iff] at hlong
  simp only [not_forall, not_le] at hlong
  obtain ⟨f, hf, hlt⟩ := hlong
  refine ⟨[.client (.connect 7 [4] (by decide)), .client longest], fun a ha => ?_, f, ?_, hlt⟩
  · rcases List.mem_cons.mp ha with rfl | ha
    · trivial
    · obtain rfl := List.mem_singleton.mp ha
      exact hlen.le
  · exact List.mem_append_right _ (List.mem_append_left _ hf)

end Server

end P2PShare
