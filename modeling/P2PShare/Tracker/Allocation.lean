import P2PShare.Tracker.Format
import P2PShare.Tracker.Sync

/-!
How far the decoders of a tracker resize their containers before they read the elements.

* `Sized`: a decoder that notes down the counts it resizes to. `sizedUpload`, …, `sizedState`
  are the decoders with a `resize` in them; without the notes they are the decoders
  themselves (`forget_upload`, …, `forget_state`).
* `Received`: a message with its payload; `Received.sizes` are the counts, also those of a
  payload that turns out to be malformed.
* `uploadHead`, …, `snapshotHead`: what stands before a list of piece hashes or a bitfield.
* `sizes_le_iff`: the counts are bounded by the length of the payload unless one of these
  heads is followed by a greater number. `sizes_unbounded` has payloads of a few bytes.
-/

namespace P2PShare

open Cursor Reader Format

/-- A decoder that notes down the counts it resizes a container to. -/
abbrev Sized := Logged UInt32 UInt8

namespace Sized

open Logged

/-! ### The decoders -/

/-- `piece_hashes.resize(pc)` and the loop behind it. -/
def sizedHashes : Sized (List Str) := do
  let pc ← lift getU32
  note pc
  times pc.toNat (lift getStr)

/-- `bits(nbits)` or `bitfield.resize(nbits)`, and the read behind it. -/
def sizedBits : Sized (List UInt8) := do
  let nbits ← lift getU32
  note nbits
  lift (getRaw nbits.toNat)

/-- A loop over a collection that grows as it is read. -/
def sizedCounted {α : Type} (g : Sized α) : Sized (List α) := do
  let n ← lift getU32
  times n.toNat g

/-- `getUpload`. -/
def sizedUpload : Sized (Str × FileMeta) := do
  let gid ← lift getStr
  let name ← lift getStr
  let size ← lift getU64
  let fileHash ← lift getStr
  let pieceHashes ← sizedHashes
  return (gid, ⟨name, size, fileHash, pieceHashes, ∅⟩)

/-- `getPieces`. -/
def sizedPieces : Sized (Str × Str × List UInt8) := do
  let gid ← lift getStr
  let fname ← lift getStr
  let bits ← sizedBits
  return (gid, fname, bits)

/-- `opUploadFile`. -/
def sizedOpUpload : Sized Call := do
  let (gid, fmeta) ← sizedUpload
  let uid ← lift getStr
  let ip ← lift getStr
  let port ← lift getU16
  return .addFile gid uid ip port fmeta

/-- `opHavePieces`. -/
def sizedOpPieces : Sized Call := do
  let (gid, fname, bits) ← sizedPieces
  let uid ← lift getStr
  let ip ← lift getStr
  let port ← lift getU16
  return .updateBitfield gid uid ip port fname bits

/-- `getPeerRef`. -/
def sizedPeerRef : Sized PeerRef := do
  let userId ← lift getStr
  let ip ← lift getStr
  let port ← lift getU16
  let bitfield ← sizedBits
  return ⟨userId, ip, port, bitfield⟩

/-- `getFileMeta`. -/
def sizedFileMeta : Sized FileMeta := do
  let name ← lift getStr
  let size ← lift getU64
  let fileHash ← lift getStr
  let pieceHashes ← sizedHashes
  let seeders ← sizedCounted sizedPeerRef
  return ⟨name, size, fileHash, pieceHashes, insertAll PeerRef.userId seeders⟩

/-- `getGroup`. -/
def sizedGroup : Sized Group := do
  let id ← lift getStr
  let owner ← lift getStr
  let members ← lift (getCounted getStr)
  let pending ← lift (getCounted getStr)
  let files ← sizedCounted sizedFileMeta
  return ⟨id, owner, .ofList members compare, .ofList pending compare,
    insertAll FileMeta.name files⟩

/-- `getState`. -/
def sizedState : Sized TrackerState := do
  let users ← lift (getCounted getUser)
  let groups ← sizedCounted sizedGroup
  return ⟨insertAll User.id users, insertAll Group.id groups⟩

/-! ### Without the notes -/

@[simp] lemma forget_hashes : forget sizedHashes = getCounted getStr := by
  simp [sizedHashes, getCounted]

@[simp] lemma forget_bits : forget sizedBits = getBits := by
  simp [sizedBits, getBits]

@[simp] lemma forget_counted {α : Type} (g : Sized α) :
    forget (sizedCounted g) = getCounted (forget g) := by
  simp [sizedCounted, getCounted]

@[simp] lemma forget_upload : forget sizedUpload = getUpload := by
  simp [sizedUpload, getUpload]

@[simp] lemma forget_pieces : forget sizedPieces = getPieces := by
  simp [sizedPieces, getPieces]

lemma forget_opUpload : forget sizedOpUpload = opUploadFile := by
  simp [sizedOpUpload, opUploadFile]

lemma forget_opPieces : forget sizedOpPieces = opHavePieces := by
  simp [sizedOpPieces, opHavePieces]

@[simp] lemma forget_peerRef : forget sizedPeerRef = getPeerRef := by
  simp [sizedPeerRef, getPeerRef]

@[simp] lemma forget_fileMeta : forget sizedFileMeta = getFileMeta := by
  simp [sizedFileMeta, getFileMeta]

@[simp] lemma forget_group : forget sizedGroup = getGroup := by
  simp [sizedGroup, getGroup]

lemma forget_state : forget sizedState = getState := by
  simp [sizedState, getState]

/-! ### Where the counts stand -/

/-- A count, and words of `F` behind fewer words of `L` than it says. -/
def begun (L F : Language UInt8) : Language UInt8 :=
  {x | ∃ n : UInt32, ∃ y ∈ rounds L F n.toNat, putU32 n ++ y = x}

/-- What stands before the piece hashes of an upload. -/
def uploadHead : Language UInt8 := strs * (strs * (u64s * strs))

/-- What stands before the bitfield of an announcement. -/
def piecesHead : Language UInt8 := strs * strs

/-- What stands before the bitfield of a seeder entry. -/
def peerRefHead : Language UInt8 := strs * (strs * u16s)

/-- What stands before the piece hashes or a bitfield of a file. -/
def fileHead : Language UInt8 :=
  strs * (u64s * (strs * (1 + counted strs * begun peerRefs peerRefHead)))

/-- The same of a group. -/
def groupHead : Language UInt8 :=
  strs * (strs * (counted strs * (counted strs * begun files fileHead)))

/-- The same of a snapshot. -/
def snapshotHead : Language UInt8 := counted users * begun groups groupHead

/-- The counts of `g` are the 32-bit numbers that stand behind a word of `F`. -/
abbrev SizesAt {α : Type} (g : Sized α) (F : Language UInt8) : Prop := g.NotesAt F putU32

lemma sizesAt_hashes : SizesAt sizedHashes 1 := by
  refine .read_note codec_u32 fun pc => ?_
  have htimes : SizesAt (Logged.times pc.toNat (lift getStr)) (rounds strs 0 pc.toNat) :=
    NotesAt.times (L := strs) (g := lift getStr) recognizes_str (.lift getStr) pc.toNat
  refine htimes.congr (Set.ext fun x => ?_)
  refine mem_rounds.trans (iff_of_false ?_ (Language.notMem_zero x))
  rintro ⟨j, -, hx⟩
  rw [mul_zero] at hx
  exact Language.notMem_zero x hx

lemma sizesAt_bits : SizesAt sizedBits 1 := .read_note codec_u32 fun _ => .lift _

lemma sizesAt_counted {α : Type} {g : Sized α} {L F : Language UInt8}
    (hL : Recognizes (forget g) L) (hg : SizesAt g F) :
    SizesAt (sizedCounted g) (begun L F) := by
  intro c n
  rw [sizedCounted, mem_log_bind]
  constructor
  · rintro (h | ⟨m, c', hm, hn⟩)
    · exact absurd h mem_log_lift
    · obtain ⟨-, hcut⟩ := (codec_u32 c m c').mp hm
      obtain ⟨y, hy, c'', hcut'⟩ := (NotesAt.times hL hg m.toNat c' n).mp hn
      refine ⟨putU32 m ++ y, ⟨m, y, hy, rfl⟩, c'', ?_⟩
      rw [List.append_assoc]
      exact cut_append.mpr ⟨c', hcut, hcut'⟩
  · rintro ⟨x, ⟨m, y, hy, rfl⟩, c'', hcut⟩
    rw [List.append_assoc] at hcut
    obtain ⟨c', hcut, hcut'⟩ := cut_append.mp hcut
    exact .inr ⟨m, c', (codec_u32 c m c').mpr ⟨trivial, hcut⟩,
      (NotesAt.times hL hg m.toNat c' n).mpr ⟨y, hy, c'', hcut'⟩⟩

/-- What is made of the value that was read. -/
lemma sizesAt_map {α γ : Type} {g : Sized α} {L F : Language UInt8}
    (hL : Recognizes (forget g) L) (hg : SizesAt g F) {f : α → Sized γ}
    (hf : ∀ a, SizesAt (f a) 0) : SizesAt (g >>= f) F := by
  refine (NotesAt.bind hL hg hf).congr ?_
  rw [mul_zero, add_zero]

lemma recognizes_hashes : Recognizes (forget sizedHashes) (counted strs) := by
  rw [forget_hashes]
  exact recognizes_counted recognizes_str

lemma recognizes_bits : Recognizes (forget sizedBits) bitfields := by
  rw [forget_bits]
  exact codec_bits.recognizes

lemma sizesAt_upload : SizesAt sizedUpload uploadHead := by
  refine .lift_bind recognizes_str fun gid => .lift_bind recognizes_str fun name =>
    .lift_bind codec_u64.recognizes fun size => ?_
  refine (NotesAt.lift_bind recognizes_str fun fileHash =>
    sizesAt_map recognizes_hashes sizesAt_hashes fun hs => .pure _).congr ?_
  exact mul_one strs

lemma sizesAt_pieces : SizesAt sizedPieces piecesHead := by
  refine .lift_bind recognizes_str fun gid => ?_
  refine (NotesAt.lift_bind recognizes_str fun fname =>
    sizesAt_map recognizes_bits sizesAt_bits fun bits => .pure _).congr ?_
  exact mul_one strs

/-- The identity fields behind a request are not resized for. -/
lemma sizesAt_identity (f : Str → Str → UInt16 → Call) :
    SizesAt (do return f (← lift getStr) (← lift getStr) (← lift getU16)) 0 := by
  refine (NotesAt.lift_bind recognizes_str fun uid => .lift_bind recognizes_str fun ip =>
    .lift_bind codec_u16.recognizes fun port => .pure _).congr ?_
  simp only [mul_zero]

lemma sizesAt_opUpload : SizesAt sizedOpUpload uploadHead := by
  have hL : Recognizes (forget sizedUpload) (strs * (strs * (u64s * (strs * counted strs)))) := by
    rw [forget_upload]
    exact recognizes_str.bind fun _ => recognizes_str.bind fun _ =>
      codec_u64.recognizes.bind fun _ => recognizes_str.bind fun _ =>
        (recognizes_counted recognizes_str).map _
  exact sizesAt_map hL sizesAt_upload fun r =>
    sizesAt_identity fun uid ip port => .addFile r.1 uid ip port r.2

lemma sizesAt_opPieces : SizesAt sizedOpPieces piecesHead := by
  have hL : Recognizes (forget sizedPieces) (strs * (strs * bitfields)) := by
    rw [forget_pieces]
    exact recognizes_str.bind fun _ => recognizes_str.bind fun _ => codec_bits.recognizes.map _
  exact sizesAt_map hL sizesAt_pieces fun r =>
    sizesAt_identity fun uid ip port => .updateBitfield r.1 uid ip port r.2.1 r.2.2

lemma sizesAt_peerRef : SizesAt sizedPeerRef peerRefHead := by
  refine .lift_bind recognizes_str fun uid => .lift_bind recognizes_str fun ip => ?_
  refine (NotesAt.lift_bind codec_u16.recognizes fun port =>
    sizesAt_map recognizes_bits sizesAt_bits fun bits => .pure _).congr ?_
  exact mul_one u16s

lemma sizesAt_fileMeta : SizesAt sizedFileMeta fileHead := by
  refine .lift_bind recognizes_str fun name => .lift_bind codec_u64.recognizes fun size =>
    .lift_bind recognizes_str fun fileHash => ?_
  refine .bind recognizes_hashes sizesAt_hashes fun hs => ?_
  have hpeer : Recognizes (forget sizedPeerRef) peerRefs := by
    rw [forget_peerRef]
    exact recognizes_peerRef
  have hpeers : Recognizes (forget (sizedCounted sizedPeerRef)) (counted peerRefs) := by
    rw [forget_counted]
    exact recognizes_counted hpeer
  exact sizesAt_map hpeers (sizesAt_counted hpeer sizesAt_peerRef) fun _ => .pure _

lemma sizesAt_group : SizesAt sizedGroup groupHead := by
  refine .lift_bind recognizes_str fun id => .lift_bind recognizes_str fun owner =>
    .lift_bind (recognizes_counted recognizes_str) fun members =>
      .lift_bind (recognizes_counted recognizes_str) fun pending => ?_
  have hfile : Recognizes (forget sizedFileMeta) files := by
    rw [forget_fileMeta]
    exact recognizes_fileMeta
  have hfiles : Recognizes (forget (sizedCounted sizedFileMeta)) (counted files) := by
    rw [forget_counted]
    exact recognizes_counted hfile
  exact sizesAt_map hfiles (sizesAt_counted hfile sizesAt_fileMeta) fun _ => .pure _

lemma sizesAt_state : SizesAt sizedState snapshotHead := by
  refine .lift_bind (recognizes_counted recognizes_user) fun users => ?_
  have hgroup : Recognizes (forget sizedGroup) groups := by
    rw [forget_group]
    exact recognizes_group
  have hgroups : Recognizes (forget (sizedCounted sizedGroup)) (counted groups) := by
    rw [forget_counted]
    exact recognizes_counted hgroup
  exact sizesAt_map hgroups (sizesAt_counted hgroup sizesAt_group) fun _ => .pure _

end Sized

/-! ### Received messages -/

open Sized

/-- What `apply_remote` resizes to for an op of this type. -/
def opSizes (type : UInt16) (payload : Str) : List UInt32 :=
  match MsgType.ofCode type with
  | some .uploadFile => sizedOpUpload.log (start payload)
  | some .havePieces => sizedOpPieces.log (start payload)
  | _ => []

/-- A message with its payload: a request that reaches `Session::dispatch`, or a message that
reaches `process_peer_message`. -/
inductive Received
  | request (σ : Session) (type : UInt16) (payload : Str)
  | peer (type : UInt16) (payload : Str)

namespace Received

/-- The payload of the message. -/
def payload : Received → Str
  | request _ _ payload => payload
  | peer _ payload => payload

/-- The counts that piece hashes and bitfields are resized to. -/
def sizes : Received → List UInt32
  | request σ type payload =>
      match MsgType.ofCode type with
      | some .uploadFile => if σ.user = [] then [] else sizedUpload.log (start payload)
      | some .havePieces => if σ.user = [] then [] else sizedPieces.log (start payload)
      | _ => []
  | peer type payload =>
      match MsgType.ofCode type with
      | some .syncOp =>
          match decode SyncMsg.getOpFrame payload with
          | none => []
          | some op => opSizes op.type op.payload
      | some .syncSnapshotData => sizedState.log (start payload)
      | _ => []

/-- The bytes begin with a word of `F` and this number. -/
def Opens (F : Language UInt8) (bytes : Str) (n : UInt32) : Prop := ∃ x ∈ F, x ++ putU32 n <+: bytes

/-- The type is that of an upload or of an announcement, and the bytes begin with what stands
before its piece hashes or its bitfield and with this number. -/
def OpensFile (type : UInt16) (bytes : Str) (n : UInt32) : Prop :=
  type = MsgType.uploadFile.code ∧ Opens uploadHead bytes n ∨
    type = MsgType.havePieces.code ∧ Opens piecesHead bytes n

/-- **The kind of messages that make the tracker resize too far**: in the request of a user who
is logged in, in an op or in a snapshot, the number that stands where a list of piece hashes or
a bitfield begins is greater than the length of the payload. -/
def Overcounts : Received → Prop
  | request σ type payload =>
      σ.user ≠ [] ∧ ∃ n, OpensFile type payload n ∧ payload.length < n.toNat
  | peer type payload =>
      type = MsgType.syncOp.code ∧ (∃ op : Op, (op.seq < 2 ^ 64 ∧ op.payload.length < 2 ^ 32) ∧
          (SyncMsg.op op).payload <+: payload ∧
          ∃ n, OpensFile op.type op.payload n ∧ payload.length < n.toNat) ∨
        type = MsgType.syncSnapshotData.code ∧
          ∃ n, Opens snapshotHead payload n ∧ payload.length < n.toNat

/-- What is noted down when a whole payload is read. -/
lemma mem_log_start {α : Type} {g : Sized α} {F : Language UInt8} (hg : SizesAt g F)
    {payload : Str} {n : UInt32} : n ∈ g.log (start payload) ↔ Opens F payload n := by
  rw [hg (start payload) n]
  constructor
  · rintro ⟨x, hx, c', hcut⟩
    exact ⟨x, hx, c'.unread, (cut_start hcut).symm⟩
  · rintro ⟨x, hx, rest, rfl⟩
    obtain ⟨c', hcut, -⟩ := exists_cut (unread_start (x ++ putU32 n ++ rest))
    exact ⟨x, hx, c', hcut⟩

lemma ofCode_eq_iff {type : UInt16} {t : MsgType} : MsgType.ofCode type = some t ↔ type = t.code :=
  ⟨MsgType.eq_code, fun h => h ▸ MsgType.ofCode_code t⟩

/-- The counts of a request and of an op, by the type. -/
lemma mem_file_sizes {type : UInt16} {payload : Str} {n : UInt32} {up pieces : List UInt32}
    (hup : n ∈ up ↔ Opens uploadHead payload n)
    (hpieces : n ∈ pieces ↔ Opens piecesHead payload n) :
    (n ∈ match MsgType.ofCode type with
      | some .uploadFile => up
      | some .havePieces => pieces
      | _ => []) ↔ OpensFile type payload n := by
  rw [OpensFile, ← ofCode_eq_iff, ← ofCode_eq_iff, ← hup, ← hpieces]
  split
  · next h => simp [h]
  · next h => simp [h]
  · next hno hno' =>
      refine iff_of_false List.not_mem_nil ?_
      rintro (⟨h, -⟩ | ⟨h, -⟩)
      · exact hno h
      · exact hno' h

lemma mem_opSizes {type : UInt16} {payload : Str} {n : UInt32} :
    n ∈ opSizes type payload ↔ OpensFile type payload n :=
  mem_file_sizes (mem_log_start sizesAt_opUpload) (mem_log_start sizesAt_opPieces)

lemma mem_request_sizes {σ : Session} {type : UInt16} {payload : Str} {n : UInt32} :
    n ∈ (request σ type payload).sizes ↔ σ.user ≠ [] ∧ OpensFile type payload n := by
  by_cases huser : σ.user = []
  · rw [sizes]
    simp only [huser, if_true, ne_eq, not_true_eq_false, false_and, iff_false]
    split <;> exact List.not_mem_nil
  · rw [sizes]
    simp only [huser, if_false, ne_eq, not_false_eq_true, true_and]
    exact mem_file_sizes (mem_log_start sizesAt_upload) (mem_log_start sizesAt_pieces)

lemma mem_peer_sizes {type : UInt16} {payload : Str} {n : UInt32} :
    n ∈ (peer type payload).sizes ↔
      type = MsgType.syncOp.code ∧ (∃ op, decode SyncMsg.getOpFrame payload = some op ∧
          OpensFile op.type op.payload n) ∨
        type = MsgType.syncSnapshotData.code ∧ Opens snapshotHead payload n := by
  rw [sizes, ← ofCode_eq_iff, ← ofCode_eq_iff]
  split
  · next h =>
      rw [h]
      simp only [true_and, Option.some.injEq, reduceCtorEq, false_and, or_false]
      cases hdec : decode SyncMsg.getOpFrame payload with
      | none => simp
      | some op => simp [mem_opSizes]
  · next h =>
      rw [h, mem_log_start sizesAt_state]
      simp
  · next hno hno' =>
      refine iff_of_false List.not_mem_nil ?_
      rintro (⟨h, -⟩ | ⟨h, -⟩)
      · exact hno h
      · exact hno' h

/-- **When the counts are bounded by the payload**: exactly if no list of piece hashes and no
bitfield that the decoder gets to is announced with more elements than the payload has bytes. -/
theorem sizes_le_iff (m : Received) :
    (∀ n ∈ m.sizes, n.toNat ≤ m.payload.length) ↔ ¬ m.Overcounts := by
  cases m with
  | request σ type payload =>
      simp only [mem_request_sizes, Overcounts, Received.payload]
      constructor
      · rintro h ⟨huser, n, hn, hlt⟩
        exact absurd (h n ⟨huser, hn⟩) (Nat.not_le.mpr hlt)
      · rintro h n ⟨huser, hn⟩
        exact Nat.le_of_not_lt fun hlt => h ⟨huser, n, hn, hlt⟩
  | peer type payload =>
      simp only [mem_peer_sizes, Overcounts, Received.payload,
        decode_eq_some_iff SyncMsg.codec_opFrame]
      constructor
      · rintro h (⟨htype, op, hfits, hpre, n, hn, hlt⟩ | ⟨htype, n, hn, hlt⟩)
        · exact absurd (h n (.inl ⟨htype, op, ⟨hfits, hpre⟩, hn⟩)) (Nat.not_le.mpr hlt)
        · exact absurd (h n (.inr ⟨htype, hn⟩)) (Nat.not_le.mpr hlt)
      · rintro h n (⟨htype, op, ⟨hfits, hpre⟩, hn⟩ | ⟨htype, hn⟩)
        · exact Nat.le_of_not_lt fun hlt =>
            h (.inl ⟨htype, op, hfits, hpre, n, hn, hlt⟩)
        · exact Nat.le_of_not_lt fun hlt => h (.inr ⟨htype, n, hn, hlt⟩)

/-- The fields of an upload up to a count of `2 ^ 32 - 1` piece hashes, none of which follows. -/
def hugeUpload : Str :=
  putStr [5] ++ putStr [7] ++ putU64 1 ++ putStr [9] ++ putU32 0xFFFFFFFF

/-- The session of a user who is logged in. -/
def someone : Session := ⟨[1], [4], 6, by decide, by decide⟩

/-- **A few bytes make the tracker resize to `2 ^ 32 - 1` elements**: as a request, as an op, and
as a snapshot with the file in a group. -/
theorem sizes_unbounded :
    let op : Op := ⟨1, MsgType.uploadFile.code, hugeUpload, 0⟩
    let snapshot : Str := putU32 0 ++ putU32 1 ++ putStr [5] ++ putStr [1] ++ putU32 0 ++
      putU32 0 ++ putU32 1 ++ putStr [7] ++ putU64 1 ++ putStr [9] ++ putU32 0xFFFFFFFF
    ∀ m ∈ [request someone MsgType.uploadFile.code hugeUpload,
        peer MsgType.syncOp.code (SyncMsg.op op).payload,
        peer MsgType.syncSnapshotData.code snapshot],
      m.payload.length ≤ maxPayload ∧ ∃ n ∈ m.sizes, m.payload.length < n.toNat := by
  decide +kernel

end Received

end P2PShare
