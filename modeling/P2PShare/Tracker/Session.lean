import P2PShare.Tracker.Snapshot

/-!
`tracker/session.hpp` and `tracker/session.cpp`: the requests of one connected
client.

* `Session`: the fields of a session that its requests use, with the bound on
  their lengths that `put_str` relies on.
* `reqCreateUser`, …, `reqHavePieces`: how `dispatch` decodes each of the eight
  replicated requests, the `TrackerState` call it makes and the payload it
  records; `reqOf` is the table of them.
* `Session.dispatch`: one request; `Session.finish`: the end of `run`.
* `Served` and `dispatch_served` (**what a request does**): it changes nothing,
  or it is a login, a logout or one of the eight.
-/

namespace P2PShare

open Cursor Reader

/-- `Session`: `user` is empty until a login succeeds. A user id is a string
that `get_str` has read and an address is one that `inet_ntop` has printed, so
both fit a 32-bit length. -/
structure Session where
  user : Str
  peerIp : Str
  seedPort : UInt16
  user_lt : user.length < 2 ^ 32
  peerIp_lt : peerIp.length < 2 ^ 32
deriving DecidableEq

/-- The constructor: nobody is logged in. -/
def Session.start (peerIp : Str) (h : peerIp.length < 2 ^ 32) : Session :=
  ⟨[], peerIp, 0, by decide, h⟩

/-- The id of a user in the examples, and the address of a client. -/
lemma user_fits : ([1] : Str).length < 2 ^ 32 := by decide

lemma peerIp_fits : ([4] : Str).length < 2 ^ 32 := by decide

/-- What a request leads to: the state and session after it, what it passes to
`record_and_replicate`, and the status and payload of the reply. -/
structure Outcome where
  state : TrackerState
  session : Session
  record : Option (UInt16 × Str)
  status : Status
  payload : Str
deriving DecidableEq

/-! ### The replicated requests -/

/-- The fields of `MSG_UPLOAD_FILE`. -/
def getUpload : Get (Str × FileMeta) := do
  let gid ← getStr
  let name ← getStr
  let size ← getU64
  let fileHash ← getStr
  let pieceHashes ← getCounted getStr
  return (gid, ⟨name, size, fileHash, pieceHashes, ∅⟩)

/-- The fields of `MSG_STOP_SHARE`. -/
def getShare : Get (Str × Str) := do
  let gid ← getStr
  let fname ← getStr
  return (gid, fname)

/-- The fields of `MSG_HAVE_PIECES`. -/
def getPieces : Get (Str × Str × List UInt8) := do
  let gid ← getStr
  let fname ← getStr
  let bits ← getBits
  return (gid, fname, bits)

/-- The identity fields that are appended to an upload and to an announcement. -/
def putSeeder (uid ip : Str) (port : UInt16) : Str :=
  putStr uid ++ putStr ip ++ putU16 port

/-- `MSG_CREATE_USER` is recorded as received. -/
def reqCreateUser (payload : Str) : Get (Call × Str) := do
  let uid ← getStr
  let pwd ← getStr
  return (.createUser uid pwd, payload)

/-- `MSG_CREATE_GROUP`: the owner is not in the payload, so it is recorded. -/
def reqCreateGroup (σ : Session) : Get (Call × Str) := do
  let gid ← getStr
  return (.createGroup gid σ.user, putStr gid ++ putStr σ.user)

/-- `MSG_JOIN_GROUP`. -/
def reqJoinGroup (σ : Session) : Get (Call × Str) := do
  let gid ← getStr
  return (.joinGroup gid σ.user, putStr gid ++ putStr σ.user)

/-- `MSG_LEAVE_GROUP`. -/
def reqLeaveGroup (σ : Session) : Get (Call × Str) := do
  let gid ← getStr
  return (.leaveGroup gid σ.user, putStr gid ++ putStr σ.user)

/-- `MSG_ACCEPT_REQUEST`. -/
def reqAcceptRequest (σ : Session) : Get (Call × Str) := do
  let gid ← getStr
  let uid ← getStr
  return (.acceptRequest gid σ.user uid, putStr gid ++ putStr σ.user ++ putStr uid)

/-- `MSG_UPLOAD_FILE`: the identity goes behind the payload as received. -/
def reqUploadFile (σ : Session) (payload : Str) : Get (Call × Str) := do
  let (gid, fmeta) ← getUpload
  return (.addFile gid σ.user σ.peerIp σ.seedPort fmeta,
    payload ++ putSeeder σ.user σ.peerIp σ.seedPort)

/-- `MSG_STOP_SHARE`: the user id goes behind the payload as received. -/
def reqStopShare (σ : Session) (payload : Str) : Get (Call × Str) := do
  let (gid, fname) ← getShare
  return (.stopShare gid σ.user fname, payload ++ putStr σ.user)

/-- `MSG_HAVE_PIECES`: the identity goes behind the payload as received. -/
def reqHavePieces (σ : Session) (payload : Str) : Get (Call × Str) := do
  let (gid, fname, bits) ← getPieces
  return (.updateBitfield gid σ.user σ.peerIp σ.seedPort fname bits,
    payload ++ putSeeder σ.user σ.peerIp σ.seedPort)

/-- The replicated requests by type. -/
def reqOf (σ : Session) (payload : Str) : MsgType → Option (Get (Call × Str))
  | .createUser => some (reqCreateUser payload)
  | .createGroup => some (reqCreateGroup σ)
  | .joinGroup => some (reqJoinGroup σ)
  | .leaveGroup => some (reqLeaveGroup σ)
  | .acceptRequest => some (reqAcceptRequest σ)
  | .uploadFile => some (reqUploadFile σ payload)
  | .stopShare => some (reqStopShare σ payload)
  | .havePieces => some (reqHavePieces σ payload)
  | _ => none

/-! ### Login -/

/-- The fields of `MSG_LOGIN`. -/
def getLogin : Get (Str × Str × UInt16) := do
  let uid ← getStr
  let pwd ← getStr
  let port ← getU16
  return (uid, pwd, port)

/-- A user id that was read fits a 32-bit length. -/
lemma length_of_getLogin {payload uid pwd : Str} {port : UInt16}
    (h : decode getLogin payload = some (uid, pwd, port)) : uid.length < 2 ^ 32 := by
  obtain ⟨c', hread⟩ := decode_eq_some.mp h
  simp only [getLogin, reads_bind, reads_pure, codec_str _ _ _] at hread
  obtain ⟨uid', c₁, ⟨hlen, -⟩, pwd', c₂, -, port', c₃, -, heq, -⟩ := hread
  cases heq
  exact hlen

namespace Session

variable (H : Str → Str)

/-! ### Replies -/

/-- A reply that leaves everything as it was. -/
def answer (s : TrackerState) (σ : Session) (st : Status) (payload : Str) : Outcome :=
  ⟨s, σ, none, st, payload⟩

/-- A reply with a status only. -/
def refuse (s : TrackerState) (σ : Session) (st : Status) : Outcome := answer s σ st []

/-- The check that most requests start with. -/
def loggedIn (s : TrackerState) (σ : Session) (o : Outcome) : Outcome :=
  if σ.user = [] then refuse s σ .notLoggedIn else o

/-- A request that reads `α`, or is malformed. -/
def parsed {α : Type} (s : TrackerState) (σ : Session) (g : Get α) (payload : Str)
    (k : α → Outcome) : Outcome :=
  match decode g payload with
  | none => refuse s σ .malformed
  | some a => k a

/-- A replicated request: run its call and record it if the call succeeds. -/
def mutate (s : TrackerState) (σ : Session) (type : MsgType) (payload : Str)
    (g : Get (Call × Str)) : Outcome :=
  parsed s σ g payload fun (c, rep) =>
    let r := s.exec H c
    ⟨r.2, σ, if r.1 = .ok then some (type.code, rep) else none, r.1, []⟩

/-- The reply to `MSG_GET_FILE_META`; its seeder entries are written as in a
snapshot. -/
def putMeta (fm : FileMeta) : Str :=
  putU64 fm.size ++ putStr fm.fileHash ++ putCounted putStr fm.pieceHashes ++
    putCounted putPeerRef (fm.seeders.toList.map Prod.snd)

/-- The session of a user who has logged in. -/
def asUser (σ : Session) (uid : Str) (h : uid.length < 2 ^ 32) (port : UInt16) : Session :=
  ⟨uid, σ.peerIp, port, h, σ.peerIp_lt⟩

/-- The session of nobody. -/
def clear (σ : Session) : Session := ⟨[], σ.peerIp, σ.seedPort, by decide, σ.peerIp_lt⟩

/-- `MSG_LOGIN`: the session remembers the user id and the port of its seeder. -/
def login (s : TrackerState) (σ : Session) (payload : Str) : Outcome :=
  match h : decode getLogin payload with
  | none => refuse s σ .malformed
  | some (uid, pwd, port) =>
      let r := s.login H uid pwd σ.peerIp port
      ⟨r.2, if r.1 = .ok then σ.asUser uid (length_of_getLogin h) port else σ, none, r.1, []⟩

/-- `MSG_LOGOUT`. -/
def logout (s : TrackerState) (σ : Session) : Outcome :=
  let r := s.logout σ.user
  ⟨r.2, σ.clear, none, r.1, []⟩

/-- `dispatch`: one request with this opcode and payload. -/
def dispatch (s : TrackerState) (σ : Session) (type : UInt16) (payload : Str) : Outcome :=
  match MsgType.ofCode type with
  | some .createUser => mutate H s σ .createUser payload (reqCreateUser payload)
  | some .login => login H s σ payload
  | some .logout => loggedIn s σ (logout s σ)
  | some .listGroups => loggedIn s σ (answer s σ .ok (putCounted putStr s.listGroups))
  | some .createGroup => loggedIn s σ (mutate H s σ .createGroup payload (reqCreateGroup σ))
  | some .joinGroup => loggedIn s σ (mutate H s σ .joinGroup payload (reqJoinGroup σ))
  | some .leaveGroup => loggedIn s σ (mutate H s σ .leaveGroup payload (reqLeaveGroup σ))
  | some .listRequests => loggedIn s σ <| parsed s σ getStr payload fun gid =>
      match s.listRequests gid σ.user with
      | (.ok, pending) => answer s σ .ok (putCounted putStr pending)
      | (st, _) => refuse s σ st
  | some .acceptRequest =>
      loggedIn s σ (mutate H s σ .acceptRequest payload (reqAcceptRequest σ))
  | some .uploadFile =>
      loggedIn s σ (mutate H s σ .uploadFile payload (reqUploadFile σ payload))
  | some .listFiles => loggedIn s σ <| parsed s σ getStr payload fun gid =>
      match s.listFiles gid σ.user with
      | (.ok, names) => answer s σ .ok (putCounted putStr names)
      | (st, _) => refuse s σ st
  | some .getFileMeta => loggedIn s σ <| parsed s σ getShare payload fun (gid, fname) =>
      match s.getFile gid σ.user fname with
      | (.ok, some fm) => answer s σ .ok (putMeta fm)
      | (st, _) => refuse s σ st
  | some .stopShare => loggedIn s σ (mutate H s σ .stopShare payload (reqStopShare σ payload))
  | some .havePieces =>
      loggedIn s σ (mutate H s σ .havePieces payload (reqHavePieces σ payload))
  | _ => refuse s σ .notImplemented

/-- The end of `run`: whoever is still logged in is logged out. -/
def finish (s : TrackerState) (σ : Session) : TrackerState :=
  if σ.user = [] then s else (s.logout σ.user).2

/-! ### What a request does -/

/-- **What a request does**: nothing, a login, a logout (of a user who may be
gone), or one of the replicated calls, which is recorded. -/
inductive Served (s : TrackerState) (σ : Session) (type : UInt16) (payload : Str) :
    Outcome → Prop
  | answered (st : Status) (out : Str) : Served s σ type payload (answer s σ st out)
  | loggedIn {uid pwd : Str} {port : UInt16} {s' : TrackerState} (hlen : uid.length < 2 ^ 32)
      (hran : TrackerState.Ran H s (.login uid pwd σ.peerIp port) s') :
      Served s σ type payload ⟨s', σ.asUser uid hlen port, none, .ok, []⟩
  | loggedOut {s' : TrackerState} (htype : type = MsgType.logout.code) (huser : σ.user ≠ [])
      (hran : TrackerState.Ran H s (.logout σ.user) s') :
      Served s σ type payload ⟨s', σ.clear, none, .ok, []⟩
  | gone (st : Status) (huser : σ.user ≠ []) (hgone : st ≠ .ok) :
      Served s σ type payload ⟨s, σ.clear, none, st, []⟩
  | mutated {t : MsgType} {g : Get (Call × Str)} {c : Call} {rep : Str} {s' : TrackerState}
      (htype : type = t.code) (hreq : reqOf σ payload t = some g)
      (huser : t = .createUser ∨ σ.user ≠ []) (hdec : decode g payload = some (c, rep))
      (hran : TrackerState.Ran H s c s') :
      Served s σ type payload ⟨s', σ, some (type, rep), .ok, []⟩

section

variable {H} {s : TrackerState} {σ : Session} {type : UInt16} {payload : Str}

lemma served_loggedIn {o : Outcome} (h : σ.user ≠ [] → Served H s σ type payload o) :
    Served H s σ type payload (loggedIn s σ o) := by
  rw [Session.loggedIn]
  split
  · exact .answered _ _
  · next huser => exact h huser

lemma served_parsed {α : Type} {g : Get α} {k : α → Outcome}
    (h : ∀ a, decode g payload = some a → Served H s σ type payload (k a)) :
    Served H s σ type payload (parsed s σ g payload k) := by
  rw [parsed]
  split
  · exact .answered _ _
  · next a ha => exact h a ha

lemma served_mutate {t : MsgType} {g : Get (Call × Str)} (htype : type = t.code)
    (hreq : reqOf σ payload t = some g) (huser : t = .createUser ∨ σ.user ≠ []) :
    Served H s σ type payload (mutate H s σ t payload g) := by
  refine served_parsed fun (c, rep) hdec => ?_
  rcases hexec : s.exec H c with ⟨st, s'⟩
  rcases TrackerState.exec_cases hexec with ⟨rfl, hran⟩ | ⟨hne, rfl⟩
  · subst htype
    simpa [hexec] using Served.mutated rfl hreq huser hdec hran
  · simpa [hexec, hne, answer] using Served.answered st []

lemma served_login : Served H s σ type payload (login H s σ payload) := by
  rw [login]
  split
  · exact .answered _ _
  · next uid pwd port hdec =>
      rcases hexec : s.login H uid pwd σ.peerIp port with ⟨st, s'⟩
      rcases TrackerState.exec_cases (c := .login uid pwd σ.peerIp port) hexec with
        ⟨rfl, hran⟩ | ⟨hne, rfl⟩
      · simpa using Served.loggedIn (length_of_getLogin hdec) hran
      · simpa [hne, answer] using Served.answered st []

lemma served_logout (htype : type = MsgType.logout.code) (huser : σ.user ≠ []) :
    Served H s σ type payload (logout s σ) := by
  rw [logout]
  rcases hexec : s.logout σ.user with ⟨st, s'⟩
  rcases TrackerState.exec_cases (H := H) (c := .logout σ.user) hexec with
    ⟨rfl, hran⟩ | ⟨hne, rfl⟩
  · exact .loggedOut htype huser hran
  · exact .gone st huser hne

/-- Every request does one of these things. -/
theorem dispatch_served (H : Str → Str) (s : TrackerState) (σ : Session) (type : UInt16)
    (payload : Str) : Served H s σ type payload (dispatch H s σ type payload) := by
  have hmutate : ∀ {t : MsgType} {g : Get (Call × Str)}, MsgType.ofCode type = some t →
      reqOf σ payload t = some g →
      Served H s σ type payload (Session.loggedIn s σ (mutate H s σ t payload g)) :=
    fun ht hreq => served_loggedIn fun huser =>
      served_mutate (MsgType.eq_code ht) hreq (.inr huser)
  rw [dispatch]
  split
  · next ht => exact served_mutate (MsgType.eq_code ht) rfl (.inl rfl)
  · exact served_login
  · next ht => exact served_loggedIn (served_logout (MsgType.eq_code ht))
  · exact served_loggedIn fun _ => .answered _ _
  · next ht => exact hmutate ht rfl
  · next ht => exact hmutate ht rfl
  · next ht => exact hmutate ht rfl
  · refine served_loggedIn fun _ => served_parsed fun gid _ => ?_
    split
    · exact .answered _ _
    · exact .answered _ _
  · next ht => exact hmutate ht rfl
  · next ht => exact hmutate ht rfl
  · refine served_loggedIn fun _ => served_parsed fun gid _ => ?_
    split
    · exact .answered _ _
    · exact .answered _ _
  · refine served_loggedIn fun _ => served_parsed fun (gid, fname) _ => ?_
    dsimp only
    split
    · exact .answered _ _
    · exact .answered _ _
  · next ht => exact hmutate ht rfl
  · next ht => exact hmutate ht rfl
  · exact .answered _ _

end

/-- **The end of a session** is a logout or nothing. -/
lemma finish_cases (H : Str → Str) (s : TrackerState) (σ : Session) :
    TrackerState.Ran H s (.logout σ.user) (σ.finish s) ∨ σ.finish s = s := by
  rw [finish]
  split
  · exact .inr rfl
  · exact TrackerState.after_cases H s (.logout σ.user)

end Session

end P2PShare
