import P2PShare.Client.Request
import P2PShare.Client.Serve

/-!
The payloads that a client builds, and what becomes of them at their receivers.

* `ClientRequest`: the requests to a tracker with the arguments that `client/main.cpp`,
  `DownloadManager::announce` and the login replay of `TrackerClient` put into them;
  `ClientRequest.payload` are the `put_` calls of each.
* `ClientRequest.outcome`: what a session makes of the arguments, `Session.unread` what
  `dispatch` leaves of a payload.
* `fetchFrom`: `fetch_piece` against `serve_peer`.
* `request_round_trip` (**encoders and decoders agree**): every request is read as the
  arguments that it was built from, to its last byte, and a piece that the seeder can
  read is what the other side fetches.
-/

namespace P2PShare

open Cursor Reader

/-! ### What a client sends -/

/-- `SHA1_HEX_LEN`. -/
def sha1HexLen : UInt32 := 40

/-- `std::string::substr` from a position inside the string. -/
def substr (s : Str) (pos n : ℕ) : Str := (s.drop pos).take n

/-- The payload of `upload_file`, given the piece hashes as `hash_file` concatenates
them. The offset of a hash is a product of 32-bit numbers. -/
def putUploadRequest (gid fname : Str) (size : UInt64) (whole pieceBlob : Str) : Str :=
  let pieceCount := UInt32.ofNat (pieceBlob.length / sha1HexLen.toNat)
  putStr gid ++ putStr fname ++ putU64 size ++ putStr whole ++ putU32 pieceCount ++
    (List.range pieceCount.toNat).flatMap fun i =>
      putStr (substr pieceBlob (UInt32.ofNat i * sha1HexLen).toNat sha1HexLen.toNat)

/-- A request to a tracker, with its arguments. -/
inductive ClientRequest
  | createUser (uid pwd : Str)
  | login (uid pwd : Str) (port : UInt16)
  /-- The login that `TrackerClient` replays on a fresh connection. -/
  | relogin (uid pwd : Str) (port : UInt16)
  | logout (loggedInAs : Str)
  | listGroups
  | createGroup (gid : Str)
  | joinGroup (gid : Str)
  | leaveGroup (gid : Str)
  | listRequests (gid : Str)
  | acceptRequest (gid uid : Str)
  | uploadFile (gid fname : Str) (size : UInt64) (whole : Str) (pieceHashes : List Str)
  | listFiles (gid : Str)
  | getFileMeta (gid fname : Str)
  | stopShare (gid fname : Str)
  | havePieces (gid fname : Str) (bits : List UInt8)
deriving DecidableEq

namespace ClientRequest

/-- The message type that `tracker.request` is called with. -/
def type : ClientRequest → MsgType
  | createUser .. => .createUser
  | login .. | relogin .. => .login
  | logout .. => .logout
  | listGroups => .listGroups
  | createGroup .. => .createGroup
  | joinGroup .. => .joinGroup
  | leaveGroup .. => .leaveGroup
  | listRequests .. => .listRequests
  | acceptRequest .. => .acceptRequest
  | uploadFile .. => .uploadFile
  | listFiles .. => .listFiles
  | getFileMeta .. => .getFileMeta
  | stopShare .. => .stopShare
  | havePieces .. => .havePieces

/-- The payload that the client builds. -/
def payload : ClientRequest → Str
  | createUser uid pwd => putStr uid ++ putStr pwd
  | login uid pwd port => putStr uid ++ putStr pwd ++ putU16 port
  | relogin uid pwd port => putLogin (uid, pwd, port)
  | logout loggedInAs => putStr loggedInAs
  | listGroups => []
  | createGroup gid | joinGroup gid | leaveGroup gid => putStr gid
  | listRequests gid => putStr gid
  | acceptRequest gid uid => putStr gid ++ putStr uid
  | uploadFile gid fname size whole pieceHashes =>
      putUploadRequest gid fname size whole pieceHashes.flatten
  | listFiles gid => putStr gid
  | getFileMeta gid fname => putStr gid ++ putStr fname
  | stopShare gid fname => putStr gid ++ putStr fname
  | havePieces gid fname bits =>
      putStr gid ++ putStr fname ++ putU32 (UInt32.ofNat bits.length) ++ bits

/-- The strings are shorter than `2 ^ 32`, and there are fewer than `10 ^ 8` hashes of 40
characters. The payload of a logout is not looked at. -/
def Fits : ClientRequest → Prop
  | createUser uid pwd => uid.length < 2 ^ 32 ∧ pwd.length < 2 ^ 32
  | login uid pwd _ | relogin uid pwd _ => uid.length < 2 ^ 32 ∧ pwd.length < 2 ^ 32
  | logout .. | listGroups => True
  | createGroup gid | joinGroup gid | leaveGroup gid => gid.length < 2 ^ 32
  | listRequests gid => gid.length < 2 ^ 32
  | acceptRequest gid uid => gid.length < 2 ^ 32 ∧ uid.length < 2 ^ 32
  | uploadFile gid fname _ whole pieceHashes =>
      gid.length < 2 ^ 32 ∧ fname.length < 2 ^ 32 ∧ whole.length < 2 ^ 32 ∧
        pieceHashes.length < 10 ^ 8 ∧ ∀ h ∈ pieceHashes, h.length = 40
  | listFiles gid => gid.length < 2 ^ 32
  | getFileMeta gid fname | stopShare gid fname => gid.length < 2 ^ 32 ∧ fname.length < 2 ^ 32
  | havePieces gid fname bits =>
      gid.length < 2 ^ 32 ∧ fname.length < 2 ^ 32 ∧ bits.length < 2 ^ 32

instance : ∀ req : ClientRequest, Decidable req.Fits
  | logout .. | listGroups => .isTrue trivial
  | createUser .. | login .. | relogin .. | acceptRequest .. | getFileMeta .. | stopShare .. =>
      inferInstanceAs (Decidable (_ ∧ _))
  | createGroup .. | joinGroup .. | leaveGroup .. | listRequests .. | listFiles .. =>
      inferInstanceAs (Decidable (_ < _))
  | uploadFile .. => inferInstanceAs (Decidable (_ ∧ _ ∧ _ ∧ _ ∧ _))
  | havePieces .. => inferInstanceAs (Decidable (_ ∧ _ ∧ _))

end ClientRequest

/-- The payload of `MSG_PIECE_REQUEST` in `fetch_piece`. -/
def putPieceRequest (k : ShareKey) (index : UInt32) : Str :=
  putStr k.group ++ putStr k.file ++ putU32 index

/-- `fetch_piece` on a connection to a seeder with these shares. -/
def fetchFrom (shares : ShareKey → Option PieceStore) (k : ShareKey) (index : UInt32) :
    Option Str :=
  let (type, status, payload) :=
    servePeer shares MsgType.pieceRequest.code (putPieceRequest k index)
  fetchPiece index.toNat (some (type.code, status.code, payload))

/-! ### What a session makes of the arguments -/

namespace Session

/-- A replicated call, and what is recorded if it succeeds. -/
def carryOut (H : Str → Str) (s : TrackerState) (σ : Session) (type : MsgType) (c : Call)
    (rep : Str) : Outcome :=
  let r := s.exec H c
  ⟨r.2, σ, if r.1 = .ok then some (type.code, rep) else none, r.1, []⟩

/-- What `dispatch` leaves of a payload unread. -/
def unread (σ : Session) (payload : Str) : MsgType → Str
  | .login => leftover getLogin payload
  | .listRequests | .listFiles => leftover getStr payload
  | .getFileMeta => leftover getShare payload
  | t =>
      match reqOf σ payload t with
      | some g => leftover g payload
      | none => payload

end Session

open Session in
/-- **What a session makes of a request with these arguments**. -/
def ClientRequest.outcome (H : Str → Str) (s : TrackerState) (σ : Session) :
    (req : ClientRequest) → req.Fits → Outcome
  | createUser uid pwd, _ =>
      carryOut H s σ .createUser (.createUser uid pwd) (putStr uid ++ putStr pwd)
  | login uid pwd port, h | relogin uid pwd port, h =>
      let r := s.login H uid pwd σ.peerIp port
      ⟨r.2, if r.1 = .ok then σ.asUser uid h.1 port else σ, none, r.1, []⟩
  | logout _, _ => loggedIn s σ (Session.logout s σ)
  | listGroups, _ => loggedIn s σ (answer s σ .ok (putCounted putStr s.listGroups))
  | createGroup gid, _ => loggedIn s σ <|
      carryOut H s σ .createGroup (.createGroup gid σ.user) (putStr gid ++ putStr σ.user)
  | joinGroup gid, _ => loggedIn s σ <|
      carryOut H s σ .joinGroup (.joinGroup gid σ.user) (putStr gid ++ putStr σ.user)
  | leaveGroup gid, _ => loggedIn s σ <|
      carryOut H s σ .leaveGroup (.leaveGroup gid σ.user) (putStr gid ++ putStr σ.user)
  | listRequests gid, _ => loggedIn s σ <|
      match s.listRequests gid σ.user with
      | (.ok, pending) => answer s σ .ok (putCounted putStr pending)
      | (st, _) => refuse s σ st
  | acceptRequest gid uid, _ => loggedIn s σ <|
      carryOut H s σ .acceptRequest (.acceptRequest gid σ.user uid)
        (putStr gid ++ putStr σ.user ++ putStr uid)
  | uploadFile gid fname size whole pieceHashes, _ => loggedIn s σ <|
      carryOut H s σ .uploadFile
        (.addFile gid σ.user σ.peerIp σ.seedPort ⟨fname, size, whole, pieceHashes, ∅⟩)
        (putUploadRequest gid fname size whole pieceHashes.flatten ++
          putSeeder σ.user σ.peerIp σ.seedPort)
  | listFiles gid, _ => loggedIn s σ <|
      match s.listFiles gid σ.user with
      | (.ok, names) => answer s σ .ok (putCounted putStr names)
      | (st, _) => refuse s σ st
  | getFileMeta gid fname, _ => loggedIn s σ <|
      match s.getFile gid σ.user fname with
      | (.ok, some fm) => answer s σ .ok (putMeta fm)
      | (st, _) => refuse s σ st
  | stopShare gid fname, _ => loggedIn s σ <|
      carryOut H s σ .stopShare (.stopShare gid σ.user fname)
        (putStr gid ++ putStr fname ++ putStr σ.user)
  | havePieces gid fname bits, _ => loggedIn s σ <|
      carryOut H s σ .havePieces (.updateBitfield gid σ.user σ.peerIp σ.seedPort fname bits)
        (putStr gid ++ putStr fname ++ putU32 (UInt32.ofNat bits.length) ++ bits ++
          putSeeder σ.user σ.peerIp σ.seedPort)

/-! ### Reading the arguments back -/

section

variable {gid fname uid pwd whole : Str} {hashes : List Str}

lemma length_flatten (h : ∀ x ∈ hashes, x.length = 40) :
    hashes.flatten.length = hashes.length * 40 := by
  induction hashes with
  | nil => rfl
  | cons x hashes ih =>
      have hx := h x (List.mem_cons_self ..)
      have hrest := ih fun y hy => h y (List.mem_cons_of_mem x hy)
      rw [List.flatten_cons, List.length_append, List.length_cons, hx, hrest]
      ring

/-- The hash at an offset of the concatenation. -/
lemma substr_flatten (h : ∀ x ∈ hashes, x.length = 40) {i : ℕ} (hi : i < hashes.length) :
    substr hashes.flatten (i * 40) 40 = hashes[i] := by
  induction hashes generalizing i with
  | nil => simp at hi
  | cons x hashes ih =>
      have hx := h x (List.mem_cons_self ..)
      cases i with
      | zero =>
          rw [substr, Nat.zero_mul, List.drop_zero, List.flatten_cons, ← hx, List.take_left]
          rfl
      | succ i =>
          have hrest := ih (fun y hy => h y (List.mem_cons_of_mem x hy)) (Nat.lt_of_succ_lt_succ hi)
          have hoff : (i + 1) * 40 = x.length + i * 40 := by rw [hx]; ring
          rw [substr, List.flatten_cons, hoff, ← List.drop_drop, List.drop_left]
          exact hrest

/-- No offset into fewer than `10 ^ 8` hashes wraps around. -/
lemma hexOffset (i : ℕ) (hi : i < 10 ^ 8) : (UInt32.ofNat i * sha1HexLen).toNat = i * 40 := by
  rw [UInt32.toNat_mul, UInt32.toNat_ofNat', sha1HexLen]
  change i % 2 ^ 32 * 40 % 2 ^ 32 = i * 40
  omega

/-- The payload of an upload has the fields that `dispatch` reads. -/
lemma putUploadRequest_eq (size : UInt64) (hcount : hashes.length < 10 ^ 8)
    (h : ∀ x ∈ hashes, x.length = 40) :
    putUploadRequest gid fname size whole hashes.flatten =
      putUpload gid ⟨fname, size, whole, hashes, ∅⟩ := by
  have hdiv : hashes.flatten.length / sha1HexLen.toNat = hashes.length := by
    rw [length_flatten h]
    exact Nat.mul_div_cancel _ (by decide)
  have hpieces : ((List.range hashes.length).flatMap fun i =>
      putStr (substr hashes.flatten (UInt32.ofNat i * sha1HexLen).toNat sha1HexLen.toNat)) =
      hashes.flatMap putStr := by
    rw [List.flatMap_def, List.flatMap_def]
    refine congrArg List.flatten (List.ext_getElem (by simp) fun i hi hi' => ?_)
    have hlt : i < hashes.length := by simpa using hi
    rw [List.getElem_map, List.getElem_map, List.getElem_range, hexOffset i (by omega)]
    exact congrArg putStr (substr_flatten h hlt)
  have hcast : (UInt32.ofNat hashes.length).toNat = hashes.length := by
    rw [UInt32.toNat_ofNat']
    omega
  rw [putUploadRequest, hdiv, hcast, hpieces, putUpload, putCounted, putSize]
  simp only [List.append_assoc]

/-- Two strings in a row. -/
lemma decodes_twoStr {α : Type} (f : Str → Str → α) (hgid : gid.length < 2 ^ 32)
    (hfname : fname.length < 2 ^ 32) :
    Decodes (do let a ← getStr; let b ← getStr; return f a b) (putStr gid ++ putStr fname)
      (f gid fname) := by
  refine decodes_of_reads fun c c' hcut => ?_
  obtain ⟨c₁, k₁, k₂⟩ := cut_append.mp hcut
  have h₁ : Reads getStr c gid c₁ := codec_str.undoes _ _ _ hgid k₁
  have h₂ : Reads getStr c₁ fname c' := codec_str.undoes _ _ _ hfname k₂
  exact h₁.bind (h₂.bind (read_pure _ c'))

lemma decodes_login (port : UInt16) (huid : uid.length < 2 ^ 32) (hpwd : pwd.length < 2 ^ 32) :
    Decodes getLogin (putLogin (uid, pwd, port)) (uid, pwd, port) := by
  refine decodes_of_reads fun c c' hcut => ?_
  obtain ⟨c₂, hcut₂, k₃⟩ := cut_append.mp hcut
  obtain ⟨c₁, k₁, k₂⟩ := cut_append.mp hcut₂
  have h₁ : Reads getStr c uid c₁ := codec_str.undoes _ _ _ huid k₁
  have h₂ : Reads getStr c₁ pwd c₂ := codec_str.undoes _ _ _ hpwd k₂
  have h₃ : Reads getU16 c₂ port c' := codec_u16.undoes _ _ _ trivial k₃
  exact h₁.bind (h₂.bind (h₃.bind (read_pure _ c')))

/-- **The seeder reads the request** that `fetch_piece` sends. -/
lemma decodes_pieceRequest (k : ShareKey) (index : UInt32) (hgroup : k.group.length < 2 ^ 32)
    (hfile : k.file.length < 2 ^ 32) :
    Decodes getPieceRequest (putPieceRequest k index) (k, index) := by
  refine decodes_of_reads fun c c' hcut => ?_
  obtain ⟨c₂, hcut₂, k₃⟩ := cut_append.mp hcut
  obtain ⟨c₁, k₁, k₂⟩ := cut_append.mp hcut₂
  have h₁ : Reads getStr c k.group c₁ := codec_str.undoes _ _ _ hgroup k₁
  have h₂ : Reads getStr c₁ k.file c₂ := codec_str.undoes _ _ _ hfile k₂
  have h₃ : Reads getU32 c₂ index c' := codec_u32.undoes _ _ _ trivial k₃
  exact h₁.bind (h₂.bind (h₃.bind (read_pure _ c')))

end

namespace Session

variable {H : Str → Str} {s : TrackerState} {σ : Session} {payload : Str}

lemma parsed_of_decodes {α : Type} {g : Get α} {a : α} (h : Decodes g payload a)
    (k : α → Outcome) : parsed s σ g payload k = k a := by
  rw [parsed, h.1]

lemma mutate_of_decodes {t : MsgType} {g : Get (Call × Str)} {c : Call} {rep : Str}
    (h : Decodes g payload (c, rep)) :
    mutate H s σ t payload g = carryOut H s σ t c rep := by
  rw [mutate, parsed_of_decodes h, carryOut]

lemma login_of_decodes {uid pwd : Str} {port : UInt16}
    (h : Decodes getLogin payload (uid, pwd, port)) (hlen : uid.length < 2 ^ 32) :
    login H s σ payload =
      let r := s.login H uid pwd σ.peerIp port
      ⟨r.2, if r.1 = .ok then σ.asUser uid hlen port else σ, none, r.1, []⟩ := by
  rw [login]
  split
  · next hnone =>
      rw [h.1] at hnone
      cases hnone
  · next uid' pwd' port' hsome =>
      rw [h.1] at hsome
      cases hsome
      rfl

end Session

namespace ClientRequest

open Session

variable {H : Str → Str} {s : TrackerState} {σ : Session}

/-- The decoder of a replicated request reads the call with these arguments. -/
lemma decodes_reqOf {req : ClientRequest} (hfits : req.Fits) {g : Get (Call × Str)}
    (hreq : reqOf σ req.payload req.type = some g) :
    ∃ c rep, Decodes g req.payload (c, rep) ∧
      req.outcome H s σ hfits =
        if req.type = .createUser then carryOut H s σ req.type c rep
        else loggedIn s σ (carryOut H s σ req.type c rep) := by
  cases req <;> cases hreq
  case createUser uid pwd =>
    exact ⟨_, _, decodes_twoStr (fun a b => (Call.createUser a b, putStr uid ++ putStr pwd))
      hfits.1 hfits.2, rfl⟩
  case createGroup gid =>
    exact ⟨_, _, (decodes_enc codec_str.undoes hfits).map
      fun g => (Call.createGroup g σ.user, putStr g ++ putStr σ.user), rfl⟩
  case joinGroup gid =>
    exact ⟨_, _, (decodes_enc codec_str.undoes hfits).map
      fun g => (Call.joinGroup g σ.user, putStr g ++ putStr σ.user), rfl⟩
  case leaveGroup gid =>
    exact ⟨_, _, (decodes_enc codec_str.undoes hfits).map
      fun g => (Call.leaveGroup g σ.user, putStr g ++ putStr σ.user), rfl⟩
  case acceptRequest gid uid =>
    exact ⟨_, _, decodes_twoStr (fun g u => (Call.acceptRequest g σ.user u,
      putStr g ++ putStr σ.user ++ putStr u)) hfits.1 hfits.2, rfl⟩
  case uploadFile gid fname size whole pieceHashes =>
    obtain ⟨hgid, hfname, hwhole, hcount, hlen⟩ := hfits
    -- the hashes are written one after another, and read one by one
    have hput : ClientRequest.payload (.uploadFile gid fname size whole pieceHashes) =
        putUpload gid ⟨fname, size, whole, pieceHashes, ∅⟩ := putUploadRequest_eq size hcount hlen
    have hup : Call.UploadFits gid ⟨fname, size, whole, pieceHashes, ∅⟩ :=
      ⟨hgid, hfname, hwhole, ⟨by dsimp only; omega, fun x hx => by have := hlen x hx; omega⟩, rfl⟩
    have hdec := decodes_enc (a := (gid, _)) codec_upload.undoes hup
    rw [← hput] at hdec
    exact ⟨_, _, hdec.map fun p => (Call.addFile p.1 σ.user σ.peerIp σ.seedPort p.2,
      putUploadRequest gid fname size whole pieceHashes.flatten ++
        putSeeder σ.user σ.peerIp σ.seedPort), rfl⟩
  case stopShare gid fname =>
    have hdec := decodes_enc (a := (gid, fname)) codec_share.undoes hfits
    exact ⟨_, _, hdec.map fun p => (Call.stopShare p.1 σ.user p.2,
      putStr gid ++ putStr fname ++ putStr σ.user), rfl⟩
  case havePieces gid fname bits =>
    have hput : ClientRequest.payload (.havePieces gid fname bits) = putPieces gid fname bits := by
      rw [ClientRequest.payload, putPieces, putBits, putSize]
      simp only [List.append_assoc]
    have hdec := decodes_enc (a := (gid, fname, bits)) codec_pieces.undoes hfits
    rw [← hput] at hdec
    exact ⟨_, _, hdec.map fun p =>
      (Call.updateBitfield p.1 σ.user σ.peerIp σ.seedPort p.2.1 p.2.2,
        putStr gid ++ putStr fname ++ putU32 (UInt32.ofNat bits.length) ++ bits ++
          putSeeder σ.user σ.peerIp σ.seedPort), rfl⟩

/-- **A request has its outcome.** -/
lemma dispatch_payload (req : ClientRequest) (hfits : req.Fits) :
    dispatch H s σ req.type.code req.payload = req.outcome H s σ hfits := by
  rw [dispatch, MsgType.ofCode_code]
  cases hreq : reqOf σ req.payload req.type with
  | some g =>
      obtain ⟨c, rep, hdec, hout⟩ := decodes_reqOf (H := H) (s := s) hfits hreq
      rw [hout]
      have hmutate : mutate H s σ req.type req.payload g = carryOut H s σ req.type c rep :=
        mutate_of_decodes hdec
      rw [← hmutate]
      cases req <;> cases hreq <;> rfl
  | none =>
      cases req <;> first | exact absurd hreq (Option.some_ne_none _) | skip
      case login uid pwd port => exact login_of_decodes (decodes_login port hfits.1 hfits.2) hfits.1
      case relogin uid pwd port =>
        exact login_of_decodes (decodes_login port hfits.1 hfits.2) hfits.1
      case logout => rfl
      case listGroups => rfl
      case listRequests gid =>
        exact congrArg (loggedIn s σ) (parsed_of_decodes (decodes_enc codec_str.undoes hfits) _)
      case listFiles gid =>
        exact congrArg (loggedIn s σ) (parsed_of_decodes (decodes_enc codec_str.undoes hfits) _)
      case getFileMeta gid fname =>
        exact congrArg (loggedIn s σ)
          (parsed_of_decodes (decodes_enc (a := (gid, fname)) codec_share.undoes hfits) _)

/-- **Nothing is left over**, except for a logout, which reads nothing. -/
lemma unread_payload (req : ClientRequest) (hfits : req.Fits)
    (hlogout : req.type ≠ .logout) : Session.unread σ req.payload req.type = [] := by
  cases hreq : reqOf σ req.payload req.type with
  | some g =>
      obtain ⟨c, rep, hdec, -⟩ := decodes_reqOf (H := id) (s := .init) hfits hreq
      have hunread : Session.unread σ req.payload req.type = leftover g req.payload := by
        cases req <;> cases hreq <;> rfl
      rw [hunread]
      exact hdec.2
  | none =>
      cases req <;> first | exact absurd hreq (Option.some_ne_none _) | skip
      case login uid pwd port => exact (decodes_login port hfits.1 hfits.2).2
      case relogin uid pwd port => exact (decodes_login port hfits.1 hfits.2).2
      case logout => exact absurd rfl hlogout
      case listGroups => rfl
      case listRequests gid => exact (decodes_enc codec_str.undoes hfits).2
      case listFiles gid => exact (decodes_enc codec_str.undoes hfits).2
      case getFileMeta gid fname =>
        exact (decodes_enc (a := (gid, fname)) codec_share.undoes hfits).2

end ClientRequest

/-! ### Pieces -/

/-- The answer to a piece request, if the store can read the piece. -/
lemma servePeer_piece {shares : ShareKey → Option PieceStore} {k : ShareKey} {store : PieceStore}
    {index : UInt32} {data payload : Str} (hreq : decode getPieceRequest payload = some (k, index))
    (hk : shares k = some store) (hread : store.readPiece index.toNat = some data) :
    servePeer shares MsgType.pieceRequest.code payload =
      (.pieceData, .ok, putU32 index ++ data) := by
  rw [servePeer, MsgType.ofCode_code]
  dsimp only
  rw [hreq]
  dsimp only
  rw [hk, Option.bind_some, hread]

/-- `fetch_piece` takes the bytes behind the index. -/
lemma fetchPiece_answer (index : UInt32) (data : Str) :
    fetchPiece index.toNat (some (MsgType.pieceData.code, Status.ok.code, putU32 index ++ data)) =
      some data := by
  have hdec : decode getU32 (putU32 index ++ data) = some index :=
    (decode_eq_some_iff codec_u32).mpr ⟨trivial, data, rfl⟩
  have hlen : (putU32 index).length = 4 := length_leBytes 4 _
  rw [fetchPiece]
  simp only [Option.bind_eq_bind, Option.bind_some, hdec, if_true]
  rw [if_neg (by simp), ← hlen, List.drop_left]

/-- A piece request is no longer than the upload that made the file known. -/
lemma length_putPieceRequest_le (k : ShareKey) (index : UInt32) {fm : FileMeta}
    (hname : fm.name = k.file) :
    (putPieceRequest k index).length ≤ (putUpload k.group fm).length := by
  have hindex : (putU32 index).length = 4 := length_leBytes 4 _
  simp only [putPieceRequest, putUpload, putCounted, List.length_append, length_putStr, hindex,
    length_putU64, length_putSize, hname]
  omega

/-- **Encoders and decoders agree**: `dispatch` carries every request out with the
arguments that the client put into it and leaves nothing of the payload, and so does the
seeder with a piece request; a piece that the seeder can read is what `fetch_piece`
returns, by way of frames that are not too long if the upload of the file was not. -/
theorem request_round_trip (H : Str → Str) :
    (∀ (s : TrackerState) (σ : Session) (req : ClientRequest) (hfits : req.Fits),
      σ.dispatch H s req.type.code req.payload = req.outcome H s σ hfits ∧
      (req.type ≠ .logout → σ.unread req.payload req.type = [])) ∧
    (∀ (k : ShareKey) (index : UInt32), k.group.length < 2 ^ 32 → k.file.length < 2 ^ 32 →
      decode getPieceRequest (putPieceRequest k index) = some (k, index) ∧
      leftover getPieceRequest (putPieceRequest k index) = []) ∧
    ∀ (shares : ShareKey → Option PieceStore) (k : ShareKey) (store : PieceStore) (index : UInt32)
      (data : Str), k.group.length < 2 ^ 32 → k.file.length < 2 ^ 32 → shares k = some store →
      store.readPiece index.toNat = some data → data.length ≤ pieceSize →
      fetchFrom shares k index = some data ∧
      (putU32 index ++ data).length ≤ maxPayload ∧
      ∀ fm : FileMeta, fm.name = k.file → (putUpload k.group fm).length ≤ maxPayload →
        (putPieceRequest k index).length ≤ maxPayload := by
  refine ⟨fun s σ req hfits => ⟨req.dispatch_payload hfits, req.unread_payload hfits⟩,
    fun k index hgroup hfile => decodes_pieceRequest k index hgroup hfile,
    fun shares k store index data hgroup hfile hk hread hlen => ⟨?_, ?_, fun fm hname hup => ?_⟩⟩
  · have hreq := (decodes_pieceRequest k index hgroup hfile).1
    rw [fetchFrom, servePeer_piece hreq hk hread]
    exact fetchPiece_answer index data
  · have hindex : (putU32 index).length = 4 := length_leBytes 4 _
    have hmax : maxPayload = pieceSize + 8192 := rfl
    simp only [List.length_append, hindex]
    omega
  · exact (length_putPieceRequest_le k index hname).trans hup

/-- An upload with two hashes, and a piece of one byte. -/
theorem request_round_trip_two_hashes :
    Session.first.dispatch id .init MsgType.uploadFile.code
        (putUploadRequest [5] [7] 1 [9] [List.replicate 40 0, List.replicate 40 1].flatten) =
      ClientRequest.outcome id .init Session.first
        (.uploadFile [5] [7] 1 [9] [List.replicate 40 0, List.replicate 40 1]) (by decide) ∧
    fetchFrom (fun _ => some (PieceStore.openForSeed [3] 1 1)) ⟨[5], [7]⟩ 0 = some [3] :=
  ⟨((request_round_trip id).1 .init Session.first
      (.uploadFile [5] [7] 1 [9] [List.replicate 40 0, List.replicate 40 1]) (by decide)).1,
    ((request_round_trip id).2.2 _ ⟨[5], [7]⟩ (PieceStore.openForSeed [3] 1 1) 0 [3] (by decide)
      (by decide) rfl (by decide) (by decide)).1⟩

end P2PShare
