import P2PShare.Tracker.Sync

/-!
What travels in the payload of a replicated op: the encoder of a call that
`apply_remote` inverts, and how the payloads that `dispatch` records compare
with it.

* `putCall`, `codec_op`: the payload of a call, and that the decoder of its
  type reads exactly the calls whose payload comes next.
* `Session.trailing`, `Session.appended`: the bytes a client may leave behind
  the last field of its request, and the fields `dispatch` appends to them.
* `recorded_payload`: a recorded payload is the payload of the local call with
  the trailing bytes in front of the appended fields.
* `Session.peer_call_iff` (**when the peer makes the same call**): exactly when
  the appended fields are still the next ones to be read.
-/

namespace P2PShare

open Cursor Reader

/-! ### The payload of a call -/

/-- The fields of `MSG_UPLOAD_FILE`. -/
def putUpload (gid : Str) (fmeta : FileMeta) : Str :=
  putStr gid ++ putStr fmeta.name ++ putU64 fmeta.size ++ putStr fmeta.fileHash ++
    putCounted putStr fmeta.pieceHashes

/-- The fields of `MSG_STOP_SHARE`. -/
def putShare (gid fname : Str) : Str := putStr gid ++ putStr fname

/-- The fields of `MSG_HAVE_PIECES`. -/
def putPieces (gid fname : Str) (bits : List UInt8) : Str :=
  putStr gid ++ putStr fname ++ putBits bits

/-- The payload from which `apply_remote` reads the call. -/
def putCall : Call → Str
  | .createUser uid pwd => putStr uid ++ putStr pwd
  | .createGroup gid owner => putStr gid ++ putStr owner
  | .joinGroup gid uid => putStr gid ++ putStr uid
  | .leaveGroup gid uid => putStr gid ++ putStr uid
  | .acceptRequest gid owner uid => putStr gid ++ putStr owner ++ putStr uid
  | .addFile gid uid ip port fmeta => putUpload gid fmeta ++ putSeeder uid ip port
  | .stopShare gid uid fname => putShare gid fname ++ putStr uid
  | .updateBitfield gid uid ip port fname bits =>
      putPieces gid fname bits ++ putSeeder uid ip port
  | .login .. | .logout .. => []

namespace Call

/-- The message type that asks for the call. -/
def type : Call → MsgType
  | createUser .. => .createUser
  | login .. => .login
  | logout .. => .logout
  | createGroup .. => .createGroup
  | joinGroup .. => .joinGroup
  | leaveGroup .. => .leaveGroup
  | acceptRequest .. => .acceptRequest
  | addFile .. => .uploadFile
  | stopShare .. => .stopShare
  | updateBitfield .. => .havePieces

/-- The strings of an upload are shorter than `2 ^ 32`, and its metadata comes
without seeders. -/
def UploadFits (gid : Str) (fmeta : FileMeta) : Prop :=
  gid.length < 2 ^ 32 ∧ fmeta.name.length < 2 ^ 32 ∧ fmeta.fileHash.length < 2 ^ 32 ∧
    (fmeta.pieceHashes.length < 2 ^ 32 ∧ ∀ h ∈ fmeta.pieceHashes, h.length < 2 ^ 32) ∧
    fmeta.seeders = ∅

/-- Every string of the call is shorter than `2 ^ 32`. -/
def Fits : Call → Prop
  | createUser uid pwd => uid.length < 2 ^ 32 ∧ pwd.length < 2 ^ 32
  | createGroup gid owner => gid.length < 2 ^ 32 ∧ owner.length < 2 ^ 32
  | joinGroup gid uid | leaveGroup gid uid => gid.length < 2 ^ 32 ∧ uid.length < 2 ^ 32
  | acceptRequest gid owner uid =>
      gid.length < 2 ^ 32 ∧ owner.length < 2 ^ 32 ∧ uid.length < 2 ^ 32
  | addFile gid uid ip _ fmeta =>
      UploadFits gid fmeta ∧ uid.length < 2 ^ 32 ∧ ip.length < 2 ^ 32
  | stopShare gid uid fname =>
      (gid.length < 2 ^ 32 ∧ fname.length < 2 ^ 32) ∧ uid.length < 2 ^ 32
  | updateBitfield gid uid ip _ fname bits =>
      (gid.length < 2 ^ 32 ∧ fname.length < 2 ^ 32 ∧ bits.length < 2 ^ 32) ∧
        uid.length < 2 ^ 32 ∧ ip.length < 2 ^ 32
  | login .. | logout .. => False

end Call

/-! ### Decoders of fields -/

lemma codec_upload :
    Codec getUpload (fun p => putUpload p.1 p.2) (fun p => Call.UploadFits p.1 p.2) := by
  rintro c ⟨gid, fmeta⟩ c'
  simp only [getUpload, putUpload, Call.UploadFits, reads_bind, reads_pure, cut_append,
    codec_str _ _ _, codec_u64 _ _ _, codec_counted codec_str _ _ _, true_and]
  constructor
  · rintro ⟨g, c₁, ⟨hg, k₁⟩, n, c₂, ⟨hn, k₂⟩, z, c₃, k₃, f, c₄, ⟨hf, k₄⟩, ps, c₅, ⟨hps, k₅⟩,
      heq, rfl⟩
    cases heq
    exact ⟨⟨hg, hn, hf, hps, rfl⟩, c₄, ⟨c₃, ⟨c₂, ⟨c₁, k₁, k₂⟩, k₃⟩, k₄⟩, k₅⟩
  · rintro ⟨⟨hg, hn, hf, hps, hseed⟩, c₄, ⟨c₃, ⟨c₂, ⟨c₁, k₁, k₂⟩, k₃⟩, k₄⟩, k₅⟩
    refine ⟨gid, c₁, ⟨hg, k₁⟩, fmeta.name, c₂, ⟨hn, k₂⟩, fmeta.size, c₃, k₃, fmeta.fileHash, c₄,
      ⟨hf, k₄⟩, fmeta.pieceHashes, c', ⟨hps, k₅⟩, ?_, rfl⟩
    rw [← hseed]

lemma codec_share : Codec getShare (fun p => putShare p.1 p.2)
    (fun p => p.1.length < 2 ^ 32 ∧ p.2.length < 2 ^ 32) := by
  rintro c ⟨gid, fname⟩ c'
  simp only [getShare, putShare, reads_bind, reads_pure, cut_append, codec_str _ _ _]
  constructor
  · rintro ⟨g, c₁, ⟨hg, k₁⟩, n, c₂, ⟨hn, k₂⟩, heq, rfl⟩
    cases heq
    exact ⟨⟨hg, hn⟩, c₁, k₁, k₂⟩
  · rintro ⟨⟨hg, hn⟩, c₁, k₁, k₂⟩
    exact ⟨gid, c₁, ⟨hg, k₁⟩, fname, c', ⟨hn, k₂⟩, rfl, rfl⟩

lemma codec_pieces : Codec getPieces (fun p => putPieces p.1 p.2.1 p.2.2)
    (fun p => p.1.length < 2 ^ 32 ∧ p.2.1.length < 2 ^ 32 ∧ p.2.2.length < 2 ^ 32) := by
  rintro c ⟨gid, fname, bits⟩ c'
  simp only [getPieces, putPieces, reads_bind, reads_pure, cut_append, codec_str _ _ _,
    codec_bits _ _ _]
  constructor
  · rintro ⟨g, c₁, ⟨hg, k₁⟩, n, c₂, ⟨hn, k₂⟩, b, c₃, ⟨hb, k₃⟩, heq, rfl⟩
    cases heq
    exact ⟨⟨hg, hn, hb⟩, c₂, ⟨c₁, k₁, k₂⟩, k₃⟩
  · rintro ⟨⟨hg, hn, hb⟩, c₂, ⟨c₁, k₁, k₂⟩, k₃⟩
    exact ⟨gid, c₁, ⟨hg, k₁⟩, fname, c₂, ⟨hn, k₂⟩, bits, c', ⟨hb, k₃⟩, rfl, rfl⟩

/-! ### Decoders of ops -/

/-- The decoder of two strings that make up a call. -/
lemma codec_twoStr {mk : Str → Str → Call} {t : MsgType}
    (hmk : ∀ c, c.type = t ∧ c.Fits ↔ ∃ a b, c = mk a b ∧ a.length < 2 ^ 32 ∧ b.length < 2 ^ 32)
    (hput : ∀ a b, putCall (mk a b) = putStr a ++ putStr b) :
    Codec (do let a ← getStr; let b ← getStr; return mk a b) putCall
      (fun c => c.type = t ∧ c.Fits) := by
  intro c call c'
  simp only [reads_bind, reads_pure, codec_str _ _ _, hmk]
  constructor
  · rintro ⟨a, c₁, ⟨ha, k₁⟩, b, c₂, ⟨hb, k₂⟩, rfl, rfl⟩
    exact ⟨⟨a, b, rfl, ha, hb⟩, by rw [hput]; exact cut_append.mpr ⟨c₁, k₁, k₂⟩⟩
  · rintro ⟨⟨a, b, rfl, ha, hb⟩, hcut⟩
    rw [hput] at hcut
    obtain ⟨c₁, k₁, k₂⟩ := cut_append.mp hcut
    exact ⟨a, c₁, ⟨ha, k₁⟩, b, c', ⟨hb, k₂⟩, rfl, rfl⟩

lemma codec_opAcceptRequest : Codec opAcceptRequest putCall
    (fun c => c.type = .acceptRequest ∧ c.Fits) := by
  intro c call c'
  simp only [opAcceptRequest, reads_bind, reads_pure, codec_str _ _ _]
  constructor
  · rintro ⟨g, c₁, ⟨hg, k₁⟩, o, c₂, ⟨ho, k₂⟩, u, c₃, ⟨hu, k₃⟩, rfl, rfl⟩
    exact ⟨⟨rfl, hg, ho, hu⟩, cut_append.mpr ⟨c₂, cut_append.mpr ⟨c₁, k₁, k₂⟩, k₃⟩⟩
  · rintro ⟨⟨htype, hfits⟩, hcut⟩
    cases call <;> cases htype
    obtain ⟨hg, ho, hu⟩ := hfits
    simp only [putCall, cut_append] at hcut
    obtain ⟨c₂, ⟨c₁, k₁, k₂⟩, k₃⟩ := hcut
    exact ⟨_, c₁, ⟨hg, k₁⟩, _, c₂, ⟨ho, k₂⟩, _, c', ⟨hu, k₃⟩, rfl, rfl⟩

lemma codec_opUploadFile : Codec opUploadFile putCall
    (fun c => c.type = .uploadFile ∧ c.Fits) := by
  intro c call c'
  simp only [opUploadFile, reads_bind, reads_pure, codec_upload _ _ _, codec_str _ _ _,
    codec_u16 _ _ _, true_and]
  constructor
  · rintro ⟨⟨g, m⟩, c₁, ⟨hm, k₁⟩, u, c₂, ⟨hu, k₂⟩, i, c₃, ⟨hi, k₃⟩, p, c₄, k₄, rfl, rfl⟩
    refine ⟨⟨rfl, hm, hu, hi⟩, ?_⟩
    simp only [putCall, putSeeder, cut_append]
    exact ⟨c₁, k₁, c₃, ⟨c₂, k₂, k₃⟩, k₄⟩
  · rintro ⟨⟨htype, hfits⟩, hcut⟩
    cases call <;> cases htype
    obtain ⟨hm, hu, hi⟩ := hfits
    rw [putCall, putSeeder] at hcut
    obtain ⟨c₁, k₁, hseed⟩ := cut_append.mp hcut
    simp only [cut_append] at hseed
    obtain ⟨c₃, ⟨c₂, k₂, k₃⟩, k₄⟩ := hseed
    exact ⟨(_, _), c₁, ⟨hm, k₁⟩, _, c₂, ⟨hu, k₂⟩, _, c₃, ⟨hi, k₃⟩, _, c', k₄, rfl, rfl⟩

lemma codec_opStopShare : Codec opStopShare putCall
    (fun c => c.type = .stopShare ∧ c.Fits) := by
  intro c call c'
  simp only [opStopShare, reads_bind, reads_pure, codec_share _ _ _, codec_str _ _ _]
  constructor
  · rintro ⟨⟨g, n⟩, c₁, ⟨hs, k₁⟩, u, c₂, ⟨hu, k₂⟩, rfl, rfl⟩
    exact ⟨⟨rfl, hs, hu⟩, cut_append.mpr ⟨c₁, k₁, k₂⟩⟩
  · rintro ⟨⟨htype, hfits⟩, hcut⟩
    cases call <;> cases htype
    obtain ⟨hs, hu⟩ := hfits
    rw [putCall] at hcut
    obtain ⟨c₁, k₁, k₂⟩ := cut_append.mp hcut
    exact ⟨(_, _), c₁, ⟨hs, k₁⟩, _, c', ⟨hu, k₂⟩, rfl, rfl⟩

lemma codec_opHavePieces : Codec opHavePieces putCall
    (fun c => c.type = .havePieces ∧ c.Fits) := by
  intro c call c'
  simp only [opHavePieces, reads_bind, reads_pure, codec_pieces _ _ _, codec_str _ _ _,
    codec_u16 _ _ _, true_and]
  constructor
  · rintro ⟨⟨g, n, b⟩, c₁, ⟨hm, k₁⟩, u, c₂, ⟨hu, k₂⟩, i, c₃, ⟨hi, k₃⟩, p, c₄, k₄, rfl, rfl⟩
    refine ⟨⟨rfl, hm, hu, hi⟩, ?_⟩
    rw [putCall, putSeeder]
    exact cut_append.mpr ⟨c₁, k₁, cut_append.mpr ⟨c₃, cut_append.mpr ⟨c₂, k₂, k₃⟩, k₄⟩⟩
  · rintro ⟨⟨htype, hfits⟩, hcut⟩
    cases call <;> cases htype
    obtain ⟨hm, hu, hi⟩ := hfits
    rw [putCall, putSeeder] at hcut
    obtain ⟨c₁, k₁, hseed⟩ := cut_append.mp hcut
    simp only [cut_append] at hseed
    obtain ⟨c₃, ⟨c₂, k₂, k₃⟩, k₄⟩ := hseed
    exact ⟨(_, _, _), c₁, ⟨hm, k₁⟩, _, c₂, ⟨hu, k₂⟩, _, c₃, ⟨hi, k₃⟩, _, c', k₄, rfl, rfl⟩

/-- **The decoder of each op** reads exactly the calls of its type whose payload
comes next. -/
theorem codec_op {t : MsgType} {g : Get Call} (h : opOf t = some g) :
    Codec g putCall (fun c => c.type = t ∧ c.Fits) := by
  cases t <;> cases h
  case createUser =>
      exact codec_twoStr (fun c => by cases c <;> simp [Call.type, Call.Fits]) fun _ _ => rfl
  case createGroup =>
      exact codec_twoStr (fun c => by cases c <;> simp [Call.type, Call.Fits]) fun _ _ => rfl
  case joinGroup =>
      exact codec_twoStr (fun c => by cases c <;> simp [Call.type, Call.Fits]) fun _ _ => rfl
  case leaveGroup =>
      exact codec_twoStr (fun c => by cases c <;> simp [Call.type, Call.Fits]) fun _ _ => rfl
  case acceptRequest => exact codec_opAcceptRequest
  case uploadFile => exact codec_opUploadFile
  case stopShare => exact codec_opStopShare
  case havePieces => exact codec_opHavePieces

/-- An op payload decodes to a call that fits exactly when it starts with the
payload of the call. -/
lemma opCall_iff {c : Call} (hfits : c.Fits) (payload : Str) :
    opCall c.type.code payload = some c ↔ putCall c <+: payload := by
  have hop : ∃ g, opOf c.type = some g := by
    cases c <;> first | exact ⟨_, rfl⟩ | exact hfits.elim
  obtain ⟨g, hg⟩ := hop
  have hcall : opCall c.type.code payload = decode g payload := by
    simp [opCall, hg]
  rw [hcall, decode_eq_some_iff (codec_op hg)]
  simp [hfits]

/-! ### What a session records -/

namespace Session

/-- What a request that is recorded as received carries behind its last field. -/
def trailing (type : MsgType) (payload : Str) : Str :=
  match type with
  | .createUser => leftover (reqCreateUser payload) payload
  | .uploadFile => leftover getUpload payload
  | .stopShare => leftover getShare payload
  | .havePieces => leftover getPieces payload
  | _ => []

/-- The fields that `dispatch` appends to a request as received. -/
def appended (σ : Session) : MsgType → Str
  | .uploadFile => putSeeder σ.user σ.peerIp σ.seedPort
  | .stopShare => putStr σ.user
  | .havePieces => putSeeder σ.user σ.peerIp σ.seedPort
  | _ => []

/-- The call that `dispatch` makes for a replicated request. -/
def localCall (σ : Session) (type : MsgType) (payload : Str) : Option Call := do
  let g ← reqOf σ payload type
  (decode g payload).map Prod.fst

/-- The appended fields are what `apply_remote` reads next. -/
def Unmistakable (σ : Session) (type : MsgType) (payload : Str) : Prop :=
  σ.appended type <+: trailing type payload ++ σ.appended type

/-- A request without trailing bytes. -/
lemma unmistakable_of_trailing {σ : Session} {type : MsgType} {payload : Str}
    (h : trailing type payload = []) : σ.Unmistakable type payload := by
  rw [Unmistakable, h]
  exact List.prefix_refl _

end Session

/-- A decoder that ends by building a value. -/
lemma decode_map {α β : Type} (g : Get α) (f : α → β) (payload : Str) :
    decode (do let a ← g; return f a) payload = (decode g payload).map f := by
  rw [decode, decode, read_bind]
  rcases read g (Cursor.start payload) with ⟨_ | a, c⟩
  · rfl
  · rfl

lemma decode_bind_pure {α β : Type} {g : Get α} {f : α → β} {payload : Str} {b : β}
    (h : decode (do let a ← g; return f a) payload = some b) :
    ∃ a, decode g payload = some a ∧ b = f a := by
  rw [decode_map] at h
  obtain ⟨a, ha, hb⟩ := Option.map_eq_some_iff.mp h
  exact ⟨a, ha, hb.symm⟩

lemma length_of_getStr {payload x : Str} (h : decode getStr payload = some x) :
    x.length < 2 ^ 32 := ((decode_eq_some_iff codec_str).mp h).1

/-- A registration and what is left behind it make up the payload. -/
lemma createUser_append_trailing {payload rep : Str} {c : Call}
    (h : decode (reqCreateUser payload) payload = some (c, rep)) :
    c.type = .createUser ∧ c.Fits ∧ rep = putCall c ++ Session.trailing .createUser payload := by
  obtain ⟨c', hread⟩ := decode_eq_some.mp h
  have hleft : Session.trailing .createUser payload = c'.unread := by
    rw [Session.trailing, leftover,
      show (reqCreateUser payload).read (Cursor.start payload) = (some (c, rep), c') from hread]
  simp only [reqCreateUser, reads_bind, reads_pure, codec_str _ _ _] at hread
  obtain ⟨uid, c₁, ⟨huid, k₁⟩, pwd, c₂, ⟨hpwd, k₂⟩, heq, rfl⟩ := hread
  cases heq
  have hcut : Cut (Cursor.start payload) (putStr uid ++ putStr pwd) c' :=
    cut_append.mpr ⟨c₁, k₁, k₂⟩
  exact ⟨rfl, ⟨huid, hpwd⟩, by rw [hleft]; exact cut_start hcut⟩

open Session in
/-- **What is recorded** for a call: its payload, with the trailing bytes of the
request in front of the appended fields. -/
theorem recorded_payload {σ : Session} {t : MsgType} {payload rep : Str} {c : Call}
    {g : Get (Call × Str)} (hreq : reqOf σ payload t = some g)
    (hdec : decode g payload = some (c, rep)) :
    c.type = t ∧ c.Fits ∧ ∃ front, putCall c = front ++ σ.appended t ∧
      rep = front ++ (trailing t payload ++ σ.appended t) := by
  -- four of the requests name a group only, and the user is appended
  have hgroup : ∀ {mk : Str → Str → Call},
      decode (do let gid ← getStr; return (mk gid σ.user, putStr gid ++ putStr σ.user)) payload
        = some (c, rep) →
      ∃ gid, gid.length < 2 ^ 32 ∧ c = mk gid σ.user ∧ rep = putStr gid ++ putStr σ.user := by
    intro mk h
    obtain ⟨gid, hgid, heq⟩ := decode_bind_pure h
    exact ⟨gid, length_of_getStr hgid, congrArg Prod.fst heq, congrArg Prod.snd heq⟩
  cases t <;> cases hreq
  case createUser =>
    obtain ⟨htype, hfits, hrep⟩ := createUser_append_trailing hdec
    exact ⟨htype, hfits, putCall c, by simp [appended], by simpa [appended] using hrep⟩
  case createGroup =>
    obtain ⟨gid, hgid, rfl, rfl⟩ := hgroup hdec
    exact ⟨rfl, ⟨hgid, σ.user_lt⟩, _, (List.append_nil _).symm,
      by simp [appended, trailing, putCall]⟩
  case joinGroup =>
    obtain ⟨gid, hgid, rfl, rfl⟩ := hgroup hdec
    exact ⟨rfl, ⟨hgid, σ.user_lt⟩, _, (List.append_nil _).symm,
      by simp [appended, trailing, putCall]⟩
  case leaveGroup =>
    obtain ⟨gid, hgid, rfl, rfl⟩ := hgroup hdec
    exact ⟨rfl, ⟨hgid, σ.user_lt⟩, _, (List.append_nil _).symm,
      by simp [appended, trailing, putCall]⟩
  case acceptRequest =>
    obtain ⟨c', hread⟩ := decode_eq_some.mp hdec
    simp only [reqAcceptRequest, reads_bind, reads_pure, codec_str _ _ _] at hread
    obtain ⟨gid, c₁, ⟨hgid, -⟩, uid, c₂, ⟨huid, -⟩, heq, -⟩ := hread
    cases heq
    exact ⟨rfl, ⟨hgid, σ.user_lt, huid⟩, _, (List.append_nil _).symm,
      by simp [appended, trailing, putCall]⟩
  case uploadFile =>
    obtain ⟨⟨gid, fmeta⟩, hup, heq⟩ := decode_bind_pure hdec
    cases heq
    have hfits := ((decode_eq_some_iff codec_upload).mp hup).1
    refine ⟨rfl, ⟨hfits, σ.user_lt, σ.peerIp_lt⟩, putUpload gid fmeta, rfl, ?_⟩
    -- what the parser has left over stays between its fields and those appended
    rw [← List.append_assoc, trailing, enc_append_leftover codec_upload hup]
    rfl
  case stopShare =>
    obtain ⟨⟨gid, fname⟩, hsh, heq⟩ := decode_bind_pure hdec
    cases heq
    have hfits := ((decode_eq_some_iff codec_share).mp hsh).1
    refine ⟨rfl, ⟨hfits, σ.user_lt⟩, putShare gid fname, rfl, ?_⟩
    rw [← List.append_assoc, trailing, enc_append_leftover codec_share hsh]
    rfl
  case havePieces =>
    obtain ⟨⟨gid, fname, bits⟩, hpc, heq⟩ := decode_bind_pure hdec
    cases heq
    have hfits := ((decode_eq_some_iff codec_pieces).mp hpc).1
    refine ⟨rfl, ⟨hfits, σ.user_lt, σ.peerIp_lt⟩, putPieces gid fname bits, rfl, ?_⟩
    rw [← List.append_assoc, trailing, enc_append_leftover codec_pieces hpc]
    rfl

/-- The peer reads the local call back from the recorded payload exactly when
the appended fields come next after the fields of the request. -/
lemma opCall_recorded {σ : Session} {t : MsgType} {payload rep : Str} {c : Call}
    {g : Get (Call × Str)} (hreq : reqOf σ payload t = some g)
    (hdec : decode g payload = some (c, rep)) :
    opCall t.code rep = some c ↔ σ.Unmistakable t payload := by
  obtain ⟨rfl, hfits, front, hput, rfl⟩ := recorded_payload hreq hdec
  rw [opCall_iff hfits, hput, Session.Unmistakable, List.prefix_append_right_inj]

namespace Session

/-- **When the peer makes the same call**: for a request that is answered with
`ST_OK` and recorded, `apply_remote` decodes the call that `dispatch` made
locally exactly when the appended fields are what comes next. -/
theorem peer_call_iff {H : Str → Str} {s : TrackerState} {σ : Session} {t : MsgType}
    {payload : Str} {type : UInt16} {rep : Str}
    (hrec : (dispatch H s σ t.code payload).record = some (type, rep)) :
    (∃ c, σ.localCall t payload = some c ∧
      (dispatch H s σ t.code payload).state = s.after H c) ∧
    (opCall type rep = σ.localCall t payload ↔ σ.Unmistakable t payload) := by
  generalize ho : dispatch H s σ t.code payload = o at hrec
  have hserved : Served H s σ t.code payload o := ho ▸ dispatch_served H s σ t.code payload
  cases hserved with
  | @mutated t' g c rep' s' htype hreq huser hdec hran =>
      obtain ⟨rfl, rfl⟩ : t.code = type ∧ rep' = rep := by simpa using hrec
      obtain rfl := MsgType.code_injective htype
      have hlocal : σ.localCall t payload = some c := by simp [localCall, hreq, hdec]
      refine ⟨⟨c, hlocal, ?_⟩, ?_⟩
      · rw [TrackerState.after, hran.exec_eq]
      · rw [hlocal, opCall_recorded hreq hdec]
  | _ => simp [answer] at hrec

/-- Users `[1]` and `[2]` share the file `[7]` of group `[5]`. -/
def bothSharing : TrackerState :=
  let fm : FileMeta := ⟨[7], 1, [9], [[8]], ∅⟩
  let calls : List Call := [.createUser [1] [1], .createUser [2] [1], .createGroup [5] [1],
    .joinGroup [5] [2], .acceptRequest [5] [1] [2], .addFile [5] [1] [4] 6 fm,
    .addFile [5] [2] [4] 6 fm]
  calls.foldl (TrackerState.after id) TrackerState.init

/-- The session of user `[1]`. -/
def first : Session := ⟨[1], [4], 6, user_fits, peerIp_fits⟩

theorem peer_call_iff_stopShare :
    opCall MsgType.stopShare.code (putShare [5] [7] ++ putStr [1])
      = first.localCall .stopShare (putShare [5] [7]) ↔
    first.Unmistakable .stopShare (putShare [5] [7]) :=
  (@peer_call_iff id bothSharing first .stopShare (putShare [5] [7]) _ _ (by decide)).2

/-- User `[1]` stops sharing with the id of user `[2]` behind the file name: the
peer stops the sharing of user `[2]`. -/
theorem stopShare_of_another :
    let payload := putShare [5] [7] ++ putStr [2]
    let rep := payload ++ putStr [1]
    (dispatch id bothSharing first MsgType.stopShare.code payload).status = .ok ∧
    (dispatch id bothSharing first MsgType.stopShare.code payload).record
      = some (MsgType.stopShare.code, rep) ∧
    first.localCall .stopShare payload = some (.stopShare [5] [1] [7]) ∧
    opCall MsgType.stopShare.code rep = some (.stopShare [5] [2] [7]) := by
  decide

end Session

end P2PShare
