import P2PShare.Tracker.Session

/-!
`tracker/sync.hpp` and `tracker/sync.cpp`: the replication of one tracker, apart
from the link that its messages travel on.

* `Op`, `SyncMsg`: a replicated mutation and the six tracker-to-tracker
  messages, with their payloads; `parse_payload` says that `parse` reads them
  back.
* `getOp`, `accepts`, `applyRemote`: `apply_remote`, the decoder of each op and
  the statuses that count as applied.
* `Tracker`: the state together with the fields of its `SyncManager`;
  `Tracker.record` is the locked part of `record_and_replicate` and
  `Tracker.process` is `process_peer_message`.

Sequence numbers are `uint64_t` on the wire and natural numbers here: a process
does not live to count to `2 ^ 64`.
-/

namespace P2PShare

open Cursor Reader

/-- `Op`: a mutation, its place in the log of its origin and the time it was
recorded. -/
structure Op where
  seq : ℕ
  type : UInt16
  payload : Str
  ts : UInt64
deriving DecidableEq

/-! ### Applying the peer's ops -/

/-- `MSG_CREATE_USER` as `apply_remote` decodes it. -/
def opCreateUser : Get Call := do
  let uid ← getStr
  let pwd ← getStr
  return .createUser uid pwd

/-- `MSG_CREATE_GROUP`. -/
def opCreateGroup : Get Call := do
  let gid ← getStr
  let owner ← getStr
  return .createGroup gid owner

/-- `MSG_JOIN_GROUP`. -/
def opJoinGroup : Get Call := do
  let gid ← getStr
  let uid ← getStr
  return .joinGroup gid uid

/-- `MSG_LEAVE_GROUP`. -/
def opLeaveGroup : Get Call := do
  let gid ← getStr
  let uid ← getStr
  return .leaveGroup gid uid

/-- `MSG_ACCEPT_REQUEST`. -/
def opAcceptRequest : Get Call := do
  let gid ← getStr
  let owner ← getStr
  let uid ← getStr
  return .acceptRequest gid owner uid

/-- `MSG_UPLOAD_FILE`: the fields of the request, then the uploader. -/
def opUploadFile : Get Call := do
  let (gid, fmeta) ← getUpload
  let uid ← getStr
  let ip ← getStr
  let port ← getU16
  return .addFile gid uid ip port fmeta

/-- `MSG_STOP_SHARE`: the fields of the request, then the user. -/
def opStopShare : Get Call := do
  let (gid, fname) ← getShare
  let uid ← getStr
  return .stopShare gid uid fname

/-- `MSG_HAVE_PIECES`: the fields of the request, then the seeder. -/
def opHavePieces : Get Call := do
  let (gid, fname, bits) ← getPieces
  let uid ← getStr
  let ip ← getStr
  let port ← getU16
  return .updateBitfield gid uid ip port fname bits

/-- The decoder of `apply_remote` for a message type, if there is one. -/
def opOf : MsgType → Option (Get Call)
  | .createUser => some opCreateUser
  | .createGroup => some opCreateGroup
  | .joinGroup => some opJoinGroup
  | .leaveGroup => some opLeaveGroup
  | .acceptRequest => some opAcceptRequest
  | .uploadFile => some opUploadFile
  | .stopShare => some opStopShare
  | .havePieces => some opHavePieces
  | _ => none

/-- The call that an op of this type with this payload asks for. -/
def opCall (type : UInt16) (payload : Str) : Option Call := do
  let g ← opOf (← MsgType.ofCode type)
  decode g payload

/-- The statuses under which a replicated call counts as applied: success, or
the status of one that had been applied before. -/
def accepts : Call → List Status
  | .createUser .. => [.ok, .alreadyExists]
  | .createGroup .. => [.ok, .alreadyExists]
  | .joinGroup .. => [.ok, .alreadyExists]
  | .leaveGroup .. => [.ok, .notMember]
  | .acceptRequest .. => [.ok, .notFound]
  | .addFile .. => [.ok, .alreadyExists]
  | .stopShare .. => [.ok, .notFound]
  | .updateBitfield .. => [.ok]
  | .login .. => []
  | .logout .. => []

/-- `apply_remote`. -/
def applyRemote (H : Str → Str) (s : TrackerState) (op : Op) : Bool × TrackerState :=
  match opCall op.type op.payload with
  | none => (false, s)
  | some c => (decide ((s.exec H c).1 ∈ accepts c), s.after H c)

/-- An op that does not decode changes nothing, and any other runs its call. -/
lemma applyRemote_cases (H : Str → Str) (s : TrackerState) (op : Op) :
    (applyRemote H s op).2 = s ∨
      ∃ c, opCall op.type op.payload = some c ∧ (applyRemote H s op).2 = s.after H c := by
  rw [applyRemote]
  split
  · exact .inl rfl
  · next c hc => exact .inr ⟨c, hc, rfl⟩

/-! ### Messages between trackers -/

/-- The messages of the link. -/
inductive SyncMsg
  | hello (index : UInt8)
  | catchup (after : ℕ)
  | op (op : Op)
  | ack (seq : ℕ)
  | snapshotRequest
  | snapshotData (blob : Str)
deriving DecidableEq

namespace SyncMsg

/-- The opcode of a message. -/
def type : SyncMsg → MsgType
  | hello _ => .syncHello
  | catchup _ => .syncCatchup
  | op _ => .syncOp
  | ack _ => .syncAck
  | snapshotRequest => .syncSnapshotRequest
  | snapshotData _ => .syncSnapshotData

/-- A sequence number on the wire. -/
def putSeq (n : ℕ) : Str := putU64 (UInt64.ofNat n)

/-- The payload of a message. -/
def payload : SyncMsg → Str
  | hello index => putU8 index
  | catchup after => putSeq after
  | op o => putSeq o.seq ++ putU16 o.type ++ putU64 o.ts ++ putStr o.payload
  | ack seq => putSeq seq
  | snapshotRequest => []
  | snapshotData blob => blob

/-- The frame is one that `recv_msg` does not reject. -/
def Sendable (m : SyncMsg) : Prop := m.payload.length ≤ maxPayload

instance (m : SyncMsg) : Decidable m.Sendable := inferInstanceAs (Decidable (_ ≤ _))

/-- A sequence number as `get_u64` reads it. -/
def getSeq : Get ℕ := do
  let n ← getU64
  return n.toNat

/-- The fields of `MSG_SYNC_OP`. -/
def getOpFrame : Get Op := do
  let seq ← getSeq
  let type ← getU16
  let ts ← getU64
  let payload ← getStr
  return ⟨seq, type, payload, ts⟩

/-- What `process_peer_message` makes of an opcode and a payload. The payloads
of hello, snapshot request and snapshot data are not read field by field. -/
def parse (type : UInt16) (payload : Str) : Option SyncMsg :=
  match MsgType.ofCode type with
  | some .syncHello => some (hello (payload.headD 0))
  | some .syncCatchup => (decode getSeq payload).map catchup
  | some .syncOp => (decode getOpFrame payload).map op
  | some .syncAck => (decode getSeq payload).map ack
  | some .syncSnapshotRequest => some snapshotRequest
  | some .syncSnapshotData => some (snapshotData payload)
  | _ => none

lemma codec_seq : Codec getSeq putSeq (fun n => n < 2 ^ 64) := by
  intro c n c'
  simp only [getSeq, reads_bind, reads_pure, codec_u64 _ _ _, true_and, putSeq]
  constructor
  · rintro ⟨k, c₁, hcut, rfl, rfl⟩
    exact ⟨k.toNat_lt, by rwa [UInt64.ofNat_toNat]⟩
  · rintro ⟨hn, hcut⟩
    exact ⟨UInt64.ofNat n, c', hcut, by rw [UInt64.toNat_ofNat', Nat.mod_eq_of_lt hn], rfl⟩

lemma codec_opFrame :
    Codec getOpFrame (fun o => (op o).payload)
      (fun o => o.seq < 2 ^ 64 ∧ o.payload.length < 2 ^ 32) := by
  intro c o c'
  simp only [getOpFrame, reads_bind, reads_pure, codec_seq _ _ _, codec_u16 _ _ _,
    codec_u64 _ _ _, codec_str _ _ _, true_and, payload, cut_append]
  constructor
  · rintro ⟨seq, c₁, ⟨hseq, h₁⟩, type, c₂, h₂, ts, c₃, h₃, pl, c₄, ⟨hpl, h₄⟩, rfl, rfl⟩
    exact ⟨⟨hseq, hpl⟩, c₃, ⟨c₂, ⟨c₁, h₁, h₂⟩, h₃⟩, h₄⟩
  · rintro ⟨⟨hseq, hpl⟩, c₃, ⟨c₂, ⟨c₁, h₁, h₂⟩, h₃⟩, h₄⟩
    exact ⟨o.seq, c₁, ⟨hseq, h₁⟩, o.type, c₂, h₂, o.ts, c₃, h₃, o.payload, c', ⟨hpl, h₄⟩, rfl, rfl⟩

/-- The numbers and lengths in a message fit their fields. -/
def Fits : SyncMsg → Prop
  | catchup after => after < 2 ^ 64
  | op o => o.seq < 2 ^ 64 ∧ o.payload.length < 2 ^ 32
  | ack seq => seq < 2 ^ 64
  | hello _ | snapshotRequest | snapshotData _ => True

/-- **A message is read as it was written.** -/
theorem parse_payload (m : SyncMsg) (h : m.Fits) : parse m.type.code m.payload = some m := by
  cases m with
  | hello index => rfl
  | catchup after =>
      have hdec := (decode_eq_some_iff codec_seq).mpr ⟨h, List.prefix_refl (putSeq after)⟩
      simpa [parse, type, payload] using hdec
  | op o =>
      have hdec := (decode_eq_some_iff codec_opFrame).mpr ⟨h, List.prefix_refl (op o).payload⟩
      simpa [parse, type] using hdec
  | ack seq =>
      have hdec := (decode_eq_some_iff codec_seq).mpr ⟨h, List.prefix_refl (putSeq seq)⟩
      simpa [parse, type, payload] using hdec
  | snapshotRequest => rfl
  | snapshotData blob => simp [parse, type, payload]

end SyncMsg

/-! ### One tracker -/

/-- A tracker: its state and, of its `SyncManager`, the next sequence number to
give, the highest one applied from the peer and the log of its own ops, oldest
first. -/
structure Tracker where
  state : TrackerState
  nextSeq : ℕ
  appliedPeerSeq : ℕ
  log : List Op
deriving DecidableEq

namespace Tracker

/-- A process that has just started. -/
def start : Tracker := ⟨.init, 1, 0, []⟩

/-- The op that `record_and_replicate` builds. -/
def nextOp (t : Tracker) (type : UInt16) (payload : Str) (now : UInt64) : Op :=
  ⟨t.nextSeq, type, payload, now⟩

/-- The locked part of `record_and_replicate`: the op gets the next sequence
number and goes to the end of the log. -/
def record (t : Tracker) (op : Op) : Tracker :=
  { t with nextSeq := t.nextSeq + 1, log := t.log ++ [op] }

/-- The ops that `send_catchup_from` collects. -/
def catchupFrom (t : Tracker) (after : ℕ) : List Op := t.log.filter fun op => after < op.seq

/-- An op from the peer: apply it and, if that worked, raise the watermark. -/
def applyOp (H : Str → Str) (t : Tracker) (op : Op) : Tracker :=
  let r := applyRemote H t.state op
  { t with
    state := r.2
    appliedPeerSeq := if r.1 then max t.appliedPeerSeq op.seq else t.appliedPeerSeq }

/-- An ACK: ops at the front of the log up to its number go. -/
def trim (t : Tracker) (seq : ℕ) : Tracker :=
  { t with log := t.log.dropWhile fun op => op.seq ≤ seq }

/-- `process_peer_message`: the messages it answers with, in order, and the
tracker after it. -/
def process (H : Str → Str) (t : Tracker) : SyncMsg → List SyncMsg × Tracker
  | .hello _ => ([], t)
  | .catchup after => ((t.catchupFrom after).map .op, t)
  | .op op => ([.ack op.seq], t.applyOp H op)
  | .ack seq => ([], t.trim seq)
  | .snapshotRequest => ([.snapshotData t.state.snapshot], t)
  | .snapshotData blob => ([], { t with state := (t.state.restore blob).2 })

/-- **What a message is answered with**: a catch-up with ops of the log, an op
with its ACK and a snapshot request with the snapshot. -/
lemma answer_cases {H : Str → Str} {t : Tracker} {m m' : SyncMsg} (h : m' ∈ (t.process H m).1) :
    (∃ n, m = .catchup n ∧ ∃ op ∈ t.log, m' = .op op) ∨
    (∃ op, m = .op op ∧ m' = .ack op.seq) ∨
    (m = .snapshotRequest ∧ m' = .snapshotData t.state.snapshot) := by
  cases m with
  | catchup n =>
      obtain ⟨op, hop, rfl⟩ := List.mem_map.mp h
      exact .inl ⟨n, rfl, op, (List.mem_filter.mp hop).1, rfl⟩
  | op op => exact .inr (.inl ⟨op, rfl, List.mem_singleton.mp h⟩)
  | snapshotRequest => exact .inr (.inr ⟨rfl, List.mem_singleton.mp h⟩)
  | hello | ack | snapshotData => cases h

/-- Processing gives no number, and at most takes ops off the log. -/
lemma process_log (H : Str → Str) (t : Tracker) (m : SyncMsg) :
    (t.process H m).2.nextSeq = t.nextSeq ∧ (t.process H m).2.log ⊆ t.log := by
  cases m with
  | ack n => exact ⟨rfl, List.dropWhile_subset _⟩
  | hello | catchup | op | snapshotRequest | snapshotData => exact ⟨rfl, List.Subset.refl _⟩

/-- What a new link makes the dialing side send after its hello: an empty
tracker asks for a snapshot and any other for a catch-up. -/
def dialRequest (t : Tracker) : SyncMsg :=
  if t.state.isEmpty then .snapshotRequest else .catchup t.appliedPeerSeq

/-- What a new link makes the accepting side send: an empty tracker asks for a
snapshot. -/
def acceptRequest (t : Tracker) : List SyncMsg :=
  if t.state.isEmpty then [.snapshotRequest] else []

lemma type_dialRequest (t : Tracker) :
    t.dialRequest.type = .syncSnapshotRequest ∨ t.dialRequest.type = .syncCatchup := by
  rw [dialRequest]
  split
  · exact .inl rfl
  · exact .inr rfl

lemma type_of_mem_acceptRequest {t : Tracker} {m : SyncMsg} (h : m ∈ t.acceptRequest) :
    m.type = .syncSnapshotRequest := by
  rw [acceptRequest] at h
  split at h
  · rw [List.mem_singleton.mp h]
    rfl
  · cases h

end Tracker

end P2PShare
