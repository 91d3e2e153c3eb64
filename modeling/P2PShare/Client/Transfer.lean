import P2PShare.Client.Chunks
import P2PShare.Client.Console
import P2PShare.Common.Sha1
import P2PShare.Tracker.Echo
import P2PShare.Tracker.Online
import P2PShare.Tracker.Published

/-!
A file on its way from one client to another.

* `DownloadJob.Of`: the metadata that `upload_file` announces of a file;
  `Of.consistent` says that it is that of one file.
* `eq_of_pieces`: files of one size are equal piece by piece.
* `uploaded_info`, `info_step`, `reply_of_getFileMeta`: the metadata on its way
  through the tracker, from the upload to the reply to `MSG_GET_FILE_META`.
* `transferred_whole` (**end to end**): whoever downloads the file has the bytes
  that were uploaded in the end, or two pieces with the same hash.
-/

namespace P2PShare

open Cursor Reader Extent PieceStore

/-! ### Files and their pieces -/

/-- **Files of one size that agree on every piece are equal.** -/
lemma eq_of_pieces {f g : Str} (hlen : f.length = g.length)
    (hpiece : ∀ i < pieces g.length,
      readAt f (i * pieceSize) pieceSize = readAt g (i * pieceSize) pieceSize) : f = g := by
  refine List.ext_getElem? fun k => ?_
  by_cases hk : k < g.length
  · have hi : k / pieceSize < pieces g.length := by
      have hge := (le_pieces_mul g.length).1
      refine Nat.div_lt_of_lt_mul ?_
      rw [Nat.mul_comm]
      omega
    have hbyte := congrArg (fun d => d[k % pieceSize]?) (hpiece _ hi)
    have hmod := Nat.mod_lt k pieceSize_pos
    have hdiv := Nat.div_add_mod k pieceSize
    rw [Nat.mul_comm] at hdiv
    simpa only [getElem?_readAt, if_pos hmod, hdiv] using hbyte
  · rw [List.getElem?_eq_none (by omega), List.getElem?_eq_none (by omega)]

/-- Only one part of at most `p` bytes begins where the part `i` does. -/
lemma eq_of_begins {i j n p : ℕ} (hp : 0 < p) (hle : j * p ≤ i * p) (hlt : i * p < j * p + n)
    (hn : n ≤ p) : j = i := by
  have hupper : i * p < (j + 1) * p := by
    rw [Nat.add_mul, Nat.one_mul]
    omega
  have hle' := Nat.le_of_mul_le_mul_right hle hp
  have hlt' := Nat.lt_of_mul_lt_mul_right hupper
  omega

/-- **The metadata that `upload_file` announces** of a file with this content. -/
structure DownloadJob.Of (H : Str → Str) (content : Str) (job : DownloadJob) : Prop where
  size : job.size = HashFile.fileSize content
  fileHash : job.fileHash = hashFile H content
  pieceHashes : job.pieceHashes = (HashFile.chunks content pieceSize).map H

lemma length_chunks (content : Str) :
    (HashFile.chunks content pieceSize).length = pieces content.length := by
  rw [HashFile.chunks, List.length_map, List.length_range]
  rfl

/-- A piece of a file, by its index. -/
lemma chunk_mem {content : Str} {i : ℕ} (hi : i < pieces content.length) :
    readAt content (i * pieceSize) pieceSize ∈ HashFile.chunks content pieceSize := by
  rw [HashFile.chunks, List.mem_map]
  exact ⟨i, List.mem_range.mpr hi, rfl⟩

namespace DownloadJob.Of

variable {H : Str → Str} {content : Str} {job : DownloadJob}

lemma toNat_size (h : job.Of H content) (hsize : content.length ≤ (2 ^ 32 - 1) * pieceSize) :
    job.size.toNat = content.length := by
  rw [h.size]
  refine HashFile.toNat_fileSize pieceSize32_pos ?_
  rw [parts_pieceSize]
  exact pieces_lt hsize

/-- The hash of a piece, by its index. -/
lemma pieceHash (h : job.Of H content) {i : ℕ} (hi : i < pieces content.length) :
    job.pieceHashes.getD i [] = H (readAt content (i * pieceSize) pieceSize) := by
  have hlen : i < job.pieceHashes.length := by
    rw [h.pieceHashes, List.length_map, length_chunks]
    exact hi
  rw [List.getD_eq_getElem _ _ hlen]
  simp [h.pieceHashes, HashFile.chunks]

/-- **It is the metadata of one file.** -/
lemma consistent (h : job.Of H content) (hsize : content.length ≤ (2 ^ 32 - 1) * pieceSize) :
    job.Consistent H := by
  have hlen : job.pieceHashes.length = pieces content.length := by
    rw [h.pieceHashes, List.length_map, length_chunks]
  have htoNat := h.toNat_size hsize
  refine ⟨.inl (by rw [hlen, htoNat]), ?_⟩
  rw [htoNat, ← hlen, List.take_length, h.fileHash, hashFile_eq H hsize, h.pieceHashes,
    List.flatMap_def]

/-- **Every piece of a job that is whole** has the hash of the piece of the file. -/
lemma hash_piece (h : job.Of H content) (hcons : job.Consistent H)
    (htoNat : job.size.toNat = content.length) {d : Download} (hd : d.Sound H job)
    (hwhole : d.Whole H job) {i : ℕ} (hi : i < pieces content.length) :
    H (readAt d.store.file (i * pieceSize) pieceSize) =
      H (readAt content (i * pieceSize) pieceSize) := by
  have hlen : d.store.file.length = content.length := hwhole.size.trans htoNat
  -- the piece that the first byte is in is the piece itself
  have hbegin : i * pieceSize < content.length := HashFile.mul_lt_of_lt_parts pieceSize_pos hi
  obtain ⟨j, hj, hle, hlt, -, hhash⟩ := hwhole.covered (i * pieceSize) (hlen ▸ hbegin)
  have hpiece := hcons.pieceLen_eq hd.size hd.count hj
  rw [pieceOff] at hle hlt hhash
  obtain rfl := eq_of_begins pieceSize_pos hle hlt (hpiece ▸ Nat.min_le_left _ _)
  rw [hpiece, htoNat, ← hlen, readAt_min, h.pieceHash hi] at hhash
  exact hhash

/-- **A job that is whole** has the bytes of the file, or two pieces that differ have the
same hash. -/
lemma content_or_collision (h : job.Of H content)
    (hsize : content.length ≤ (2 ^ 32 - 1) * pieceSize) {d : Download} (hd : d.Sound H job)
    (hwhole : d.Whole H job) :
    d.store.file = content ∨ ∃ a ∈ HashFile.chunks d.store.file pieceSize,
      ∃ b ∈ HashFile.chunks content pieceSize, a ≠ b ∧ H a = H b := by
  by_contra hnot
  rw [not_or] at hnot
  obtain ⟨hne, hno⟩ := hnot
  have hlen : d.store.file.length = content.length := hwhole.size.trans (h.toNat_size hsize)
  refine hne (eq_of_pieces hlen fun i hi => ?_)
  by_contra hdiff
  have hi' : i < pieces d.store.file.length := by
    rw [hlen]
    exact hi
  exact hno ⟨_, chunk_mem hi', _, chunk_mem hi, hdiff,
    h.hash_piece (h.consistent hsize) (h.toNat_size hsize) hd hwhole hi⟩

end DownloadJob.Of

/-! ### The metadata on the tracker -/

section

variable {H : Str → Str} {s s' : TrackerState} {σ : Session} {gid fname : Str}

lemma infoOf_groups (s : TrackerState) (gid fname : Str) :
    infoOf s.groups[gid]? fname = (s.file gid fname).map FileMeta.info := by
  rw [infoOf, TrackerState.file, Option.map_bind]
  rfl

/-- Metadata is part of the directory. -/
lemma infoOf_directory (hdir : s.directory = s'.directory) (gid fname : Str) :
    infoOf s.groups[gid]? fname = infoOf s'.groups[gid]? fname := by
  have hview : ∀ s : TrackerState, infoOf s.groups[gid]? fname =
      s.directory.groups[gid]?.bind fun grp => grp.files[fname]? := by
    intro s
    rw [TrackerState.getElem?_directory_groups, Option.bind_map, infoOf]
    exact congrArg _ (funext fun grp => (grp.getElem?_info_files fname).symm)
  rw [hview, hview, hdir]

/-- **An upload that is accepted** under a new name publishes its metadata. -/
lemma uploaded_info {size : UInt64} {whole : Str} {hashes : List Str}
    (hfits : (ClientRequest.uploadFile gid fname size whole hashes).Fits)
    (hnew : s.file gid fname = none)
    (hok : (σ.dispatch H s MsgType.uploadFile.code
      (putUploadRequest gid fname size whole hashes.flatten)).status = .ok) :
    infoOf (σ.dispatch H s MsgType.uploadFile.code
        (putUploadRequest gid fname size whole hashes.flatten)).state.groups[gid]? fname =
      some ⟨size, whole, hashes⟩ := by
  have hout := ClientRequest.dispatch_payload (H := H) (s := s) (σ := σ) _ hfits
  change σ.dispatch H s MsgType.uploadFile.code
    (putUploadRequest gid fname size whole hashes.flatten) = _ at hout
  rw [hout] at hok ⊢
  rw [ClientRequest.outcome, Session.loggedIn] at hok ⊢
  split at hok
  · cases hok
  · next huser =>
      rw [if_neg huser]
      dsimp only [Session.carryOut] at hok ⊢
      rcases hexec :
          s.exec H (.addFile gid σ.user σ.peerIp σ.seedPort ⟨fname, size, whole, hashes, ∅⟩)
        with ⟨st, s'⟩
      rw [hexec] at hok
      rcases TrackerState.exec_cases hexec with ⟨-, hran⟩ | ⟨hne, -⟩
      · rw [infoOf_groups]
        cases hran with
        | addSeeder _ _ _ hg _ hf =>
            rw [TrackerState.file, hg, Option.bind_some] at hnew
            cases hnew.symm.trans hf
        | addFile _ _ _ hg =>
            rw [TrackerState.file_setFile hg, if_pos ⟨rfl, rfl⟩]
            rfl
      · exact absurd hok hne

/-- Whoever gets the metadata of a file gets that of the file. -/
lemma file_of_getFile {uid : Str} {o : Option FileMeta}
    (h : s.getFile gid uid fname = (.ok, o)) : ∃ fm, o = some fm ∧ s.file gid fname = some fm := by
  rw [TrackerState.getFile] at h
  split at h
  · cases h
  · split at h
    · cases h
    · next grp hg =>
        split at h
        · cases h
        · split at h
          · cases h
          · next fm hfm =>
              refine ⟨fm, (congrArg Prod.snd h).symm, ?_⟩
              rw [TrackerState.file, hg, Option.bind_some, hfm]

/-- The reply to a request for the metadata of a file. -/
lemma reply_of_getFileMeta (hgid : gid.length < 2 ^ 32) (hfname : fname.length < 2 ^ 32)
    (hok : (σ.dispatch H s MsgType.getFileMeta.code (putStr gid ++ putStr fname)).status = .ok) :
    ∃ fm, s.file gid fname = some fm ∧
      (σ.dispatch H s MsgType.getFileMeta.code (putStr gid ++ putStr fname)).payload =
        Session.putMeta fm := by
  have hout := ClientRequest.dispatch_payload (H := H) (s := s) (σ := σ) (.getFileMeta gid fname)
    ⟨hgid, hfname⟩
  change σ.dispatch H s MsgType.getFileMeta.code (putStr gid ++ putStr fname) =
    Session.loggedIn s σ _ at hout
  rw [hout, Session.loggedIn] at hok ⊢
  split at hok
  · cases hok
  · next huser =>
      rw [if_neg huser]
      rcases hget : s.getFile gid σ.user fname with ⟨st, o⟩
      rw [hget] at hok
      have hst : st = .ok := by
        cases st <;> first | rfl | cases hok
      subst hst
      obtain ⟨fm, rfl, hfm⟩ := file_of_getFile hget
      exact ⟨fm, hfm, rfl⟩

/-- **One event** that does not dissolve the group keeps the metadata. -/
lemma info_step {sv : Server} {info : FileInfo}
    (hinfo : infoOf sv.tracker.state.groups[gid]? fname = some info) {ev : ClientEvent}
    (hkeep : ∀ c ∈ ev.stateCall sv, ¬ sv.tracker.state.Dissolves H gid c) :
    infoOf (sv.serve H ev).2.tracker.state.groups[gid]? fname = some info := by
  rw [infoOf_groups] at hinfo ⊢
  rw [(Server.serve_eq_apply H sv ev).1, Server.state_apply]
  cases hcall : ev.stateCall sv with
  | none => exact hinfo
  | some c =>
      obtain ⟨fm, hfm, hmeta⟩ := Option.map_eq_some_iff.mp hinfo
      obtain ⟨fm', hfm', hpub⟩ := TrackerState.published_after hfm (hkeep c hcall)
      refine Option.map_eq_some_iff.mpr ⟨fm', hfm', ?_⟩
      rw [← hmeta]
      show fm'.published.info = fm.published.info
      rw [hpub]

end

/-! ### From one client to the other -/

/-- `upload_file` has got this from `hash_file`, which no read has failed. -/
def Hashed (H : Str → Str) (content : Str) (cores : UInt32) (whole pieceBlob : Str)
    (size : UInt64) : Prop :=
  pieces content.length + (HashFile.threadCount 0 cores
      (HashFile.pieceCount (HashFile.fileSize content) pieceSize32)).toNat < 2 ^ 32 ∧
    ∃ s, Run (HashFile.hashStep H content pieceSize32) (fun _ e => e.2.All (· ≠ .fail))
        (HashFile.hashThreads content pieceSize32 0 cores) s ∧ s.Joined ∧
      HashFile.returned H content pieceSize32 s = some (whole, pieceBlob, size)

section

variable {H : Str → Str} {content whole pieceBlob : Str} {size : UInt64} {cores : UInt32}

lemma Hashed.eq (h : Hashed H content cores whole pieceBlob size)
    (hsize : content.length ≤ (2 ^ 32 - 1) * pieceSize) :
    whole = hashFile H content ∧
      pieceBlob = ((HashFile.chunks content pieceSize).map H).flatten ∧
      size = HashFile.fileSize content := by
  obtain ⟨hcount, s, hrun, hjoined, hret⟩ := h
  rw [hashFile_run hsize hcount hrun hjoined] at hret
  cases hret
  exact ⟨rfl, List.flatMap_def, rfl⟩

lemma length_flatMap_putStr (f : ℕ → Str) (l : List ℕ) :
    4 * l.length ≤ (l.flatMap fun i => putStr (f i)).length := by
  induction l with
  | nil => exact Nat.zero_le _
  | cons i l ih =>
      rw [List.flatMap_cons, List.length_append, List.length_cons, length_putStr]
      omega

/-- **An upload that fits into a frame** has arguments that fit. -/
lemma fits_of_frame {gid fname : Str} (hH : ∀ data, (H data).length = 40)
    (hsize : content.length ≤ (2 ^ 32 - 1) * pieceSize)
    (hframe : (putUploadRequest gid fname size (hashFile H content)
      ((HashFile.chunks content pieceSize).map H).flatten).length ≤ maxPayload) :
    (ClientRequest.uploadFile gid fname size (hashFile H content)
      ((HashFile.chunks content pieceSize).map H)).Fits := by
  have hhashes : ∀ x ∈ (HashFile.chunks content pieceSize).map H, x.length = 40 := by
    intro x hx
    obtain ⟨chunk, -, rfl⟩ := List.mem_map.mp hx
    exact hH chunk
  have hlen : ((HashFile.chunks content pieceSize).map H).length = pieces content.length := by
    rw [List.length_map, length_chunks]
  have hcount : (UInt32.ofNat (((HashFile.chunks content pieceSize).map H).flatten.length /
      sha1HexLen.toNat)).toNat = pieces content.length := by
    have hdiv : pieces content.length * 40 / sha1HexLen.toNat = pieces content.length :=
      Nat.mul_div_cancel _ (by decide)
    rw [length_flatten hhashes, hlen, hdiv, UInt32.toNat_ofNat', Nat.mod_eq_of_lt (pieces_lt hsize)]
  have hmax : maxPayload = 532480 := rfl
  have hblob := length_flatMap_putStr (fun i => substr
    ((HashFile.chunks content pieceSize).map H).flatten
      (UInt32.ofNat i * sha1HexLen).toNat sha1HexLen.toNat) (List.range (pieces content.length))
  rw [List.length_range] at hblob
  simp only [putUploadRequest, List.length_append, length_putStr, hcount, hmax] at hframe
  have hwhole : (hashFile H content).length = 40 := hH _
  exact ⟨by omega, by omega, by omega, by omega, hhashes⟩

/-- A reply that fits into a frame is decoded by `download_file`. -/
lemma decode_reply (port₀ : UInt16) (own : Str) {fm : FileMeta}
    (hframe : (Session.putMeta fm).length ≤ maxPayload) :
    decode (getDownload port₀ own) (Session.putMeta fm) =
      some (fm.size, fm.fileHash, fm.pieceHashes, fm.peersFor own) := by
  have hmax : maxPayload = 532480 := rfl
  -- the name is not part of the reply
  have hfits : FileMeta.Fits { fm with name := [] } := by
    refine FileMeta.fits_of_length ?_
    have heq : putFileMeta { fm with name := [] } = putStr [] ++ Session.putMeta fm := by
      simp [putFileMeta, Session.putMeta]
    rw [heq, List.length_append, length_putStr, List.length_nil]
    omega
  exact (decodes_getDownload port₀ own hfits).1

end

/-- What a session answers to the request of `download_file`. -/
def metaReply (H : Str → Str) (s : TrackerState) (σ : Session) (gid fname : Str) : Outcome :=
  σ.dispatch H s MsgType.getFileMeta.code (putStr gid ++ putStr fname)

section

variable {G H : Str → Str} {content whole pieceBlob : Str} {size : UInt64} {cores : UInt32}
  {gid fname : Str} {sv sv' : Server} {fd : ℕ} {σ σ' : Session} {now : UInt64} {t : TrackerState}

/-- **The metadata arrives**: what a client reads from a reply is what another one has
announced, whatever has been done in between that does not dissolve the group. -/
lemma meta_arrives (hG : ∀ data, (G data).length = 40)
    (hsize : content.length ≤ (2 ^ 32 - 1) * pieceSize)
    (hhashed : Hashed G content cores whole pieceBlob size)
    (hframe : (putUploadRequest gid fname size whole pieceBlob).length ≤ maxPayload)
    (hσ : sv.sessions fd = some σ) (hnew : sv.tracker.state.file gid fname = none)
    (hok : (σ.dispatch H sv.tracker.state MsgType.uploadFile.code
      (putUploadRequest gid fname size whole pieceBlob)).status = .ok)
    (hrun : Run (Server.step H)
      (fun sv ev => ∀ c ∈ ev.stateCall sv, ¬ sv.tracker.state.Dissolves H gid c)
      (sv.serve H (.request fd MsgType.uploadFile.code
        (putUploadRequest gid fname size whole pieceBlob) now)).2 sv')
    (hdir : t.directory = sv'.tracker.state.directory)
    (hokMeta : (metaReply H t σ' gid fname).status = .ok)
    (hlen : (metaReply H t σ' gid fname).payload.length ≤ maxPayload)
    (port₀ : UInt16) (own : Str) :
    ∃ peers, decode (getDownload port₀ own) (metaReply H t σ' gid fname).payload =
      some (HashFile.fileSize content, hashFile G content,
        (HashFile.chunks content pieceSize).map G, peers) := by
  obtain ⟨rfl, rfl, rfl⟩ := hhashed.eq hsize
  have hfits := fits_of_frame hG hsize hframe
  have hinfo : infoOf sv'.tracker.state.groups[gid]? fname =
      some ⟨HashFile.fileSize content, hashFile G content,
        (HashFile.chunks content pieceSize).map G⟩ := by
    refine hrun.invariant (I := fun sv => infoOf sv.tracker.state.groups[gid]? fname =
      some _) ?_ fun hI hkeep hstep => ?_
    · rw [(Server.serve_request (H := H) hσ MsgType.uploadFile.code _ now).1]
      exact uploaded_info hfits hnew hok
    · obtain rfl := Option.some.inj hstep
      exact info_step hI hkeep
  obtain ⟨fm, hfm, hpayload⟩ := reply_of_getFileMeta hfits.1 hfits.2.1 hokMeta
  rw [← infoOf_directory hdir, infoOf_groups, hfm] at hinfo
  have hmeta : fm.info = _ := Option.some.inj hinfo
  change (metaReply H t σ' gid fname).payload = _ at hpayload
  rw [hpayload] at hlen ⊢
  refine ⟨fm.peersFor own, (decode_reply port₀ own hlen).trans ?_⟩
  rw [show fm.size = _ from congrArg FileInfo.size hmeta,
    show fm.fileHash = _ from congrArg FileInfo.fileHash hmeta,
    show fm.pieceHashes = _ from congrArg FileInfo.pieceHashes hmeta]

/-- **The bytes arrive**: a job with this metadata that is done has the file, or two pieces
with the same hash. -/
lemma DownloadJob.Of.done {job : DownloadJob} (h : job.Of G content)
    (hsize : content.length ≤ (2 ^ 32 - 1) * pieceSize) (file : Str) (seekData : ℕ → Option ℕ)
    (fails : ℕ → Bool) {st : PieceStore} {d : Download}
    (hopen : openForDownload file job.size job.pieceHashes.length = some st)
    (hrun : Run (Download.step G job) (fun _ _ => True)
      (Download.start (st.resumeScan G job.pieceHashes seekData fails)) d)
    (hdone : d.stage = .done) :
    d.store.file = content ∨ ∃ a ∈ HashFile.chunks d.store.file pieceSize,
      ∃ b ∈ HashFile.chunks content pieceSize, a ≠ b ∧ G a = G b := by
  have hsound : d.Sound G job :=
    hrun.invariant (Download.sound_start hopen) fun hI _ hstep => hI.step hstep
  have hwhole := Download.finished_whole G job (h.consistent hsize) file seekData fails hopen hrun
    hdone
  exact h.content_or_collision hsize hsound hwhole

/-- **A file arrives as it was uploaded.** A client hashes a file and uploads its metadata
under a new name; whatever clients do then that does not dissolve the group, another client
that is answered by the tracker, or by one with the same directory, reads the same metadata.
If its download job is done in the end, whatever the destination file was, whatever the peers
have sent and however the workers took turns, the destination has the bytes of the file, or
there are two different pieces with the same hash. Hashes have 40 characters, as those of
`SHA1.hashBuffer` do. -/
theorem transferred_whole (G H : Str → Str) (hG : ∀ data, (G data).length = 40) {path : Str}
    (hsize : content.length ≤ (2 ^ 32 - 1) * pieceSize)
    (hhashed : Hashed G content cores whole pieceBlob size)
    (hframe : (putUploadRequest gid (basename path) size whole pieceBlob).length ≤ maxPayload)
    (hσ : sv.sessions fd = some σ) (hnew : sv.tracker.state.file gid (basename path) = none)
    (hok : (σ.dispatch H sv.tracker.state MsgType.uploadFile.code
      (putUploadRequest gid (basename path) size whole pieceBlob)).status = .ok)
    (hrun : Run (Server.step H)
      (fun sv ev => ∀ c ∈ ev.stateCall sv, ¬ sv.tracker.state.Dissolves H gid c)
      (sv.serve H (.request fd MsgType.uploadFile.code
        (putUploadRequest gid (basename path) size whole pieceBlob) now)).2 sv')
    (hdir : t.directory = sv'.tracker.state.directory)
    (hokMeta : (metaReply H t σ' gid (basename path)).status = .ok)
    (hlen : (metaReply H t σ' gid (basename path)).payload.length ≤ maxPayload)
    (port₀ : UInt16) (own : Str) :
    ∃ jsize jhash jhashes peers,
      decode (getDownload port₀ own) (metaReply H t σ' gid (basename path)).payload =
        some (jsize, jhash, jhashes, peers) ∧
      ∀ job : DownloadJob, job.size = jsize → job.fileHash = jhash → job.pieceHashes = jhashes →
        ∀ (file : Str) (seekData : ℕ → Option ℕ) (fails : ℕ → Bool) (st : PieceStore)
          (d : Download), openForDownload file job.size job.pieceHashes.length = some st →
          Run (Download.step G job) (fun _ _ => True)
            (Download.start (st.resumeScan G job.pieceHashes seekData fails)) d →
          d.stage = .done →
          d.store.file = content ∨ ∃ a ∈ HashFile.chunks d.store.file pieceSize,
            ∃ b ∈ HashFile.chunks content pieceSize, a ≠ b ∧ G a = G b := by
  obtain ⟨peers, hdec⟩ := meta_arrives hG hsize hhashed hframe hσ hnew hok hrun hdir hokMeta hlen
    port₀ own
  refine ⟨_, _, _, peers, hdec, ?_⟩
  intro job hjsize hjhash hjhashes file seekData fails st d hopen hdrun hdone
  exact DownloadJob.Of.done ⟨hjsize, hjhash, hjhashes⟩ hsize file seekData fails hopen hdrun hdone

end

/-! ### One byte -/

/-- The members `[1]` and `[2]` of the group `[5]` are connected. -/
def twoMembers : Server :=
  ⟨{ Tracker.start with
      state := [.createUser [1] [4], .createUser [2] [4], .createGroup [5] [1],
        .joinGroup [5] [2], .acceptRequest [5] [1] [2]].foldl (TrackerState.after id) .init },
    fun fd => if fd = 7 then some ((Session.start [4] peerIp_fits).asUser [1] user_fits 6)
      else if fd = 8 then some ((Session.start [4] peerIp_fits).asUser [2] user_fits 6) else none⟩

/-- The first 40 characters, as a hash. -/
def first40 (data : Str) : Str := (data ++ List.replicate 40 0).take 40

lemma length_first40 (data : Str) : (first40 data).length = 40 := by
  rw [first40, List.length_take, List.length_append, List.length_replicate]
  omega

/-- What `hash_file` returns for a file of the byte 9. -/
def wholeNine : Str := hashFile first40 [9]

/-- What it writes to `piece_blob`. -/
def blobNine : Str := (HashFile.chunks [9] pieceSize).flatMap first40

/-- The upload of that file from the path `[100, 47, 102]`. -/
def uploadNine : Str := putUploadRequest [5] (basename [100, 47, 102]) 1 wholeNine blobNine

lemma hashed_nine : Hashed first40 [9] 1 wholeNine blobNine 1 := by
  have hcount : pieces ([9] : Str).length + (HashFile.threadCount 0 1
      (HashFile.pieceCount (HashFile.fileSize [9]) pieceSize32)).toNat < 2 ^ 32 := by
    decide +kernel
  let es : List (ℕ × Deed HashFile.ChunkEvent) :=
    [(0, .look), (0, .claim), (0, .work (.pread 1)), (0, .work .store), (0, .look), (0, .claim)]
  let s := (exec (HashFile.hashStep first40 [9] pieceSize32)
    (HashFile.hashThreads [9] pieceSize32 0 1) es).get (by decide +kernel)
  have hreads : ∀ e ∈ es, e.2.All (· ≠ .fail) := by decide
  have hmeets : Meets (HashFile.hashStep first40 [9] pieceSize32)
      (fun _ e => e.2.All (· ≠ .fail)) (HashFile.hashThreads [9] pieceSize32 0 1) es :=
    meets_of_forall hreads _
  have hrun := Run.of_exec hmeets (show _ = some s from (Option.some_get _).symm)
  have hjoined : ∀ d ∈ s.workers, d = .ended := by decide +kernel
  exact ⟨hcount, s, hrun, hjoined, hashFile_run (by decide +kernel) hcount hrun hjoined⟩

/-- The tracker after the upload, and after the uploader has gone. -/
def uploadedNine : Server :=
  (twoMembers.serve id (.request 7 MsgType.uploadFile.code uploadNine 0)).2

def goneNine : Server := (uploadedNine.serve id (.disconnect 7)).2

/-- The session of the member `[2]`. -/
def askingNine : Session := (Session.start [4] peerIp_fits).asUser [2] user_fits 6

/-- The job of that member, and what it starts from. -/
def jobNine : DownloadJob := ⟨[5], [102], 1, wholeNine, [first40 [9]], by decide⟩

def startNine : Download :=
  Download.start (resumeScan first40 jobNine.pieceHashes (fun _ => some 0) (fun _ => false)
    ⟨1, 1, .empty 1, [0]⟩)

lemma of_nine : jobNine.Of first40 [9] := by
  constructor <;> decide +kernel

theorem transferred_whole_nine :
    let d := (exec (Download.step first40 jobNine) startNine Download.toTheEnd).get
      (by decide +kernel)
    d.store.file = [9] ∨ ∃ a ∈ HashFile.chunks d.store.file pieceSize,
      ∃ b ∈ HashFile.chunks [9] pieceSize, a ≠ b ∧ first40 a = first40 b := by
  intro d
  have hmeets : Meets (Server.step id)
      (fun sv ev => ∀ c ∈ ev.stateCall sv, ¬ sv.tracker.state.Dissolves id [5] c) uploadedNine
        [.disconnect 7] := by
    decide +kernel
  have hrun := Run.of_exec hmeets (show _ = some goneNine from rfl)
  have hframe : (putUploadRequest [5] (basename [100, 47, 102]) 1 wholeNine blobNine).length ≤
      maxPayload := by
    decide +kernel
  have hanswer : (metaReply id goneNine.tracker.state askingNine [5]
      (basename [100, 47, 102])).status = .ok := by
    decide +kernel
  obtain ⟨jsize, jhash, jhashes, peers, hdec, hjob⟩ := transferred_whole first40 id length_first40
    (by decide +kernel) hashed_nine hframe (show twoMembers.sessions 7 = some _ from rfl)
    (by decide +kernel) (by decide +kernel) hrun rfl hanswer (by decide +kernel) 0 [2]
  have hread : decode (getDownload 0 [2]) (metaReply id goneNine.tracker.state askingNine [5]
      (basename [100, 47, 102])).payload = some (1, wholeNine, [first40 [9]], []) := by
    decide +kernel
  rw [hread] at hdec
  obtain ⟨rfl, rfl, rfl, -⟩ : jsize = 1 ∧ jhash = wholeNine ∧ jhashes = [first40 [9]] ∧
      peers = [] := by
    simpa only [Option.some.injEq, Prod.mk.injEq, eq_comm] using hdec
  have hsteps : Meets (Download.step first40 jobNine) (fun _ _ => True) startNine
      Download.toTheEnd :=
    meets_of_forall (p := fun _ => True) (fun _ _ => trivial) _
  exact hjob jobNine rfl rfl rfl [] (fun _ => some 0) (fun _ => false) ⟨1, 1, .empty 1, [0]⟩ d
    (by decide +kernel) (Run.of_exec hsteps (Option.some_get _).symm) (by decide +kernel)

end P2PShare
