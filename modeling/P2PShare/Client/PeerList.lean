import P2PShare.Tracker.Session

/-!
The reply to `MSG_GET_FILE_META` and its two decoders: the one of `download_file` in
`client/main.cpp`, which checks the first three reads only, and `decode_peer_list` of
`client/download_manager.cpp`, which checks all of them.

* `getDownload` and `decodePeerList`: the two.
* `FileMeta.peersFor`: the seeders that a client can fetch from, which
  `mem_peersFor` and `pairwise_peersFor` describe.
* `meta_reply_decoded` (**both decoders agree with the encoder**).
-/

namespace P2PShare

open Cursor Reader

/-- `PeerAddr`. -/
structure PeerAddr where
  userId : Str
  ip : Str
  port : UInt16
deriving DecidableEq

/-! ### The decoder of `download_file` -/

/-- A peer in the loop of `download_file`. A failed read leaves the variable as it is;
for the port, which has no initial value, this is any value. -/
def getPeerUnchecked (port₀ : UInt16) : Get PeerAddr := do
  let userId ← orDefault getStr []
  let ip ← orDefault getStr []
  let port ← orDefault getU16 port₀
  let _bits ← orDefault getBits []
  return ⟨userId, ip, port⟩

/-- The fields of the job in `download_file`: the size, the file hash, the piece hashes
and the peers. -/
def getDownload (port₀ : UInt16) (loggedInAs : Str) :
    Get (UInt64 × Str × List Str × List PeerAddr) := do
  let size ← getU64
  let fileHash ← getStr
  let pc ← getU32
  let pieceHashes ← Reader.times pc.toNat (orDefault getStr [])
  let npeers ← orDefault getU32 0
  let peers ← Reader.times npeers.toNat (getPeerUnchecked port₀)
  return (size, fileHash, pieceHashes, peers.filter fun pa => pa.userId ≠ loggedInAs)

/-! ### `decode_peer_list` -/

/-- What `decode_peer_list` reads in front of the peers, down to their number. -/
def getPeerCount : Get UInt32 := do
  let _size ← getU64
  let _fhash ← getStr
  let pc ← getU32
  let _hashes ← Reader.times pc.toNat getStr
  getU32

/-- A peer in the loop of `decode_peer_list`. -/
def getPeer : Get PeerAddr := do
  let userId ← getStr
  let ip ← getStr
  let port ← getU16
  let _bits ← getBits
  return ⟨userId, ip, port⟩

/-- The loop: the peers that were read before a failure stay in `out`. -/
def peerLoop (selfUid : Str) : ℕ → Buffer → List PeerAddr → Bool × List PeerAddr × Buffer
  | 0, c, out => (true, out, c)
  | n + 1, c, out =>
      match getPeer.read c with
      | (none, c') => (false, out, c')
      | (some pa, c') =>
          peerLoop selfUid n c' (if pa.userId ≠ selfUid then out ++ [pa] else out)

/-- `decode_peer_list`: the result, `out`, and the buffer at the end. -/
def decodePeerList (resp selfUid : Str) (out : List PeerAddr) : Bool × List PeerAddr × Buffer :=
  match getPeerCount.read (Cursor.start resp) with
  | (none, c) => (false, out, c)
  | (some npeers, c) => peerLoop selfUid npeers.toNat c []

/-! ### The peers of a file -/

/-- The address in a seeder entry. -/
def PeerRef.addr (pr : PeerRef) : PeerAddr := ⟨pr.userId, pr.ip, pr.port⟩

/-- The seeders other than the client itself. -/
def FileMeta.peersFor (fm : FileMeta) (self : Str) : List PeerAddr :=
  ((fm.seeders.toList.map Prod.snd).map PeerRef.addr).filter fun pa => pa.userId ≠ self

section

variable {fm : FileMeta} {self : Str}

lemma mem_peersFor (hkeys : Keyed PeerRef.userId fm.seeders) {pa : PeerAddr} :
    pa ∈ fm.peersFor self ↔
      pa.userId ≠ self ∧ ∃ pr, fm.seeders[pa.userId]? = some pr ∧ pr.addr = pa := by
  rw [FileMeta.peersFor, List.mem_filter, decide_eq_true_eq, and_comm]
  refine and_congr_right fun _ => ?_
  simp only [List.mem_map, Prod.exists]
  constructor
  · rintro ⟨pr, ⟨k, _, hmem, rfl⟩, rfl⟩
    have hget := Std.ExtTreeMap.mem_toList_iff_getElem?_eq_some.mp hmem
    refine ⟨_, ?_, rfl⟩
    rw [PeerRef.addr, hkeys k _ hget]
    exact hget
  · rintro ⟨pr, hget, hpa⟩
    exact ⟨pr, ⟨_, pr, Std.ExtTreeMap.mem_toList_iff_getElem?_eq_some.mpr hget, rfl⟩, hpa⟩

/-- **They come in the order of their ids.** -/
lemma pairwise_peersFor (hkeys : Keyed PeerRef.userId fm.seeders) :
    (fm.peersFor self).Pairwise fun a b => compare a.userId b.userId = .lt := by
  refine List.Pairwise.filter _ ?_
  rw [List.map_map, List.pairwise_map]
  have hsorted : fm.seeders.toList.Pairwise fun a b => compare a.1 b.1 = .lt :=
    Std.ExtTreeMap.ordered_keys_toList
  refine hsorted.imp_of_mem fun {a b} ha hb hlt => ?_
  have hkey : ∀ x ∈ fm.seeders.toList, x.2.userId = x.1 := fun x hx =>
    hkeys x.1 x.2 (Std.ExtTreeMap.mem_toList_iff_getElem?_eq_some.mp hx)
  rw [Function.comp_apply, Function.comp_apply, PeerRef.addr, PeerRef.addr, hkey a ha, hkey b hb]
  exact hlt

end

/-! ### Reading the reply -/

lemma reads_getPeer {pr : PeerRef} (hfits : pr.Fits) {c c' : Buffer}
    (hcut : Cut c (putPeerRef pr) c') : Reads getPeer c pr.addr c' := by
  simp only [putPeerRef, cut_append] at hcut
  obtain ⟨c₃, ⟨c₂, ⟨c₁, hid, hip⟩, hport⟩, hbits⟩ := hcut
  refine (codec_str.undoes _ _ _ hfits.userId hid).bind ?_
  refine (codec_str.undoes _ _ _ hfits.ip hip).bind ?_
  refine (codec_u16.undoes _ _ _ trivial hport).bind ?_
  refine (codec_bits.undoes _ _ _ hfits.bitfield hbits).bind ?_
  exact read_pure _ _

lemma reads_getPeerUnchecked (port₀ : UInt16) {pr : PeerRef} (hfits : pr.Fits) {c c' : Buffer}
    (hcut : Cut c (putPeerRef pr) c') : Reads (getPeerUnchecked port₀) c pr.addr c' := by
  simp only [putPeerRef, cut_append] at hcut
  obtain ⟨c₃, ⟨c₂, ⟨c₁, hid, hip⟩, hport⟩, hbits⟩ := hcut
  refine (Reads.orDefault (codec_str.undoes _ _ _ hfits.userId hid) []).bind ?_
  refine (Reads.orDefault (codec_str.undoes _ _ _ hfits.ip hip) []).bind ?_
  refine (Reads.orDefault (codec_u16.undoes _ _ _ trivial hport) port₀).bind ?_
  refine (Reads.orDefault (codec_bits.undoes _ _ _ hfits.bitfield hbits) []).bind ?_
  exact read_pure _ _

/-- **The loop** reads the peers one after another. -/
lemma peerLoop_of_cut (self : Str) {prs : List PeerRef} (hfits : ∀ pr ∈ prs, pr.Fits)
    {c c' : Buffer} (hcut : Cut c (prs.flatMap putPeerRef) c') (out : List PeerAddr) :
    peerLoop self prs.length c out =
      (true, out ++ (prs.map PeerRef.addr).filter (fun pa => pa.userId ≠ self), c') := by
  induction prs generalizing c out with
  | nil =>
      obtain rfl : c' = c := by simpa using hcut
      rw [List.length_nil, peerLoop, List.map_nil, List.filter_nil, List.append_nil]
  | cons pr prs ih =>
      have happ : Cut c (putPeerRef pr ++ prs.flatMap putPeerRef) c' := hcut
      obtain ⟨c₁, hcut₁, hcut₂⟩ := cut_append.mp happ
      have hread : getPeer.read c = (some pr.addr, c₁) :=
        reads_getPeer (hfits pr (List.mem_cons_self ..)) hcut₁
      rw [List.length_cons, peerLoop, hread]
      dsimp only
      rw [ih (fun x hx => hfits x (List.mem_cons_of_mem pr hx)) hcut₂, List.map_cons]
      by_cases hself : pr.addr.userId = self
      · rw [if_neg (by simpa using hself), List.filter_cons_of_neg (by simpa using hself)]
      · rw [if_pos hself, List.filter_cons_of_pos (by simpa using hself), List.append_assoc,
          List.singleton_append]

section

variable {fm : FileMeta} {self : Str}

/-- The seeder entries of a reply, in the order of the map. -/
lemma fits_of_mem_seeders (hfits : fm.Fits) : ∀ pr ∈ fm.seeders.toList.map Prod.snd, pr.Fits := by
  intro pr hpr
  obtain ⟨⟨k, v⟩, hmem, rfl⟩ := List.mem_map.mp hpr
  exact hfits.seeder k v (Std.ExtTreeMap.mem_toList_iff_getElem?_eq_some.mp hmem)

/-- The number that stands in front of a collection. -/
lemma toNat_ofNat_length {α : Type} {as : List α} (h : as.length < 2 ^ 32) :
    (UInt32.ofNat as.length).toNat = as.length := by
  rw [UInt32.toNat_ofNat', Nat.mod_eq_of_lt h]

lemma length_seeders (hfits : fm.Fits) : (fm.seeders.toList.map Prod.snd).length < 2 ^ 32 := by
  rw [List.length_map, Std.ExtTreeMap.length_toList]
  exact hfits.seeders

/-- **The decoder of `download_file`** reads a reply to its end. -/
lemma decodes_getDownload (port₀ : UInt16) (self : Str) (hfits : fm.Fits) :
    Decodes (getDownload port₀ self) (Session.putMeta fm)
      (fm.size, fm.fileHash, fm.pieceHashes, fm.peersFor self) := by
  refine decodes_of_reads fun c c' hcut => ?_
  simp only [Session.putMeta, putCounted, cut_append] at hcut
  obtain ⟨c₃, ⟨c₂, ⟨c₁, hsize, hhash⟩, c₂', hpc, hhashes⟩, c₃', hnp, hpeers⟩ := hcut
  refine (codec_u64.undoes _ _ _ trivial hsize).bind ?_
  refine (codec_str.undoes _ _ _ hfits.fileHash hhash).bind ?_
  refine (codec_u32.undoes _ _ _ trivial hpc).bind ?_
  have hstr : Reads (Reader.times fm.pieceHashes.length (orDefault getStr [])) c₂'
      (fm.pieceHashes.map id) c₃ :=
    reads_times_map (fun h hh c c' hcut =>
      Reads.orDefault (codec_str.undoes _ _ _ (hfits.pieceHash h hh) hcut) []) hhashes
  rw [List.map_id] at hstr
  rw [toNat_ofNat_length hfits.pieceHashes]
  refine hstr.bind ?_
  refine (Reads.orDefault (codec_u32.undoes _ _ _ trivial hnp) 0).bind ?_
  have hpeer := reads_times_map (f := PeerRef.addr)
    (fun pr hpr c c' hcut => reads_getPeerUnchecked port₀ (fits_of_mem_seeders hfits pr hpr) hcut)
    hpeers
  rw [toNat_ofNat_length (length_seeders hfits)]
  exact hpeer.bind (read_pure _ _)

/-- **`decode_peer_list`** reads a reply to its end. -/
lemma decodePeerList_putMeta (self : Str) (hfits : fm.Fits) (out : List PeerAddr) :
    ∃ c : Buffer, decodePeerList (Session.putMeta fm) self out = (true, fm.peersFor self, c) ∧
      c.unread = [] := by
  obtain ⟨c', hcut, hrest⟩ := exists_cut
    ((unread_start (Session.putMeta fm)).trans (List.append_nil _).symm)
  simp only [Session.putMeta, putCounted, cut_append] at hcut
  obtain ⟨c₃, ⟨c₂, ⟨c₁, hsize, hhash⟩, c₂', hpc, hhashes⟩, c₃', hnp, hpeers⟩ := hcut
  have hcount : getPeerCount.read (Cursor.start (Session.putMeta fm)) =
      (some (UInt32.ofNat (fm.seeders.toList.map Prod.snd).length), c₃') := by
    have hstr := (codec_str.undoes.times fm.pieceHashes.length) fm.pieceHashes c₂' c₃
      ⟨rfl, hfits.pieceHash⟩ hhashes
    refine (codec_u64.undoes _ _ _ trivial hsize).bind ?_
    refine (codec_str.undoes _ _ _ hfits.fileHash hhash).bind ?_
    refine (codec_u32.undoes _ _ _ trivial hpc).bind ?_
    rw [toNat_ofNat_length hfits.pieceHashes]
    exact hstr.bind (codec_u32.undoes _ _ _ trivial hnp)
  refine ⟨c', ?_, hrest⟩
  rw [decodePeerList, hcount]
  dsimp only
  rw [toNat_ofNat_length (length_seeders hfits),
    peerLoop_of_cut self (fits_of_mem_seeders hfits) hpeers, List.nil_append]
  rfl

/-- **Both decoders agree with the encoder**: they find the seeders other than the client
itself, in the order of their ids, and `download_file` the size and the hashes as well;
neither leaves anything of the reply. -/
theorem meta_reply_decoded (fm : FileMeta) (hkeys : Keyed PeerRef.userId fm.seeders)
    (hfits : fm.Fits) (own : Str) (port₀ : UInt16) (out : List PeerAddr) :
    ∃ peers : List PeerAddr,
      (∀ pa, pa ∈ peers ↔ pa.userId ≠ own ∧
        ∃ pr, fm.seeders[pa.userId]? = some pr ∧ pr.addr = pa) ∧
      (peers.Pairwise fun a b => compare a.userId b.userId = .lt) ∧
      (decode (getDownload port₀ own) (Session.putMeta fm) =
          some (fm.size, fm.fileHash, fm.pieceHashes, peers) ∧
        leftover (getDownload port₀ own) (Session.putMeta fm) = []) ∧
      ∃ c : Buffer, decodePeerList (Session.putMeta fm) own out = (true, peers, c) ∧
        c.unread = [] :=
  ⟨fm.peersFor own, fun _ => mem_peersFor hkeys, pairwise_peersFor hkeys,
    decodes_getDownload port₀ own hfits, decodePeerList_putMeta own hfits out⟩

end

/-- A file of one piece that users `[1]` and `[2]` have. -/
def twoSeeders : FileMeta :=
  ⟨[7], 1, [9], [[8]],
    ((∅ : StrMap PeerRef).insert [2] ⟨[2], [4], 7, [128]⟩).insert [1] ⟨[1], [4], 6, []⟩⟩

theorem meta_reply_decoded_twoSeeders :
    ∃ peers, decode (getDownload 0 [1]) (Session.putMeta twoSeeders) = some (1, [9], [[8]], peers) ∧
      (⟨[2], [4], 7⟩ : PeerAddr) ∈ peers := by
  have hone := (keyed_empty PeerRef.userId).insert (v := ⟨[2], [4], 7, [128]⟩) rfl
  have hkeys : Keyed PeerRef.userId twoSeeders.seeders := hone.insert (v := ⟨[1], [4], 6, []⟩) rfl
  obtain ⟨peers, hmem, -, hdec, -⟩ :=
    meta_reply_decoded twoSeeders hkeys (FileMeta.fits_of_length (by decide)) [1] 0 []
  exact ⟨peers, hdec.1, (hmem _).mpr ⟨by decide, ⟨[2], [4], 7, [128]⟩, by decide, rfl⟩⟩

end P2PShare
