import P2PShare.Client.Messages
import P2PShare.Common.Net

/-!
A connection from a download to a seeder, byte by byte: `fetch_piece` at one end and the
loop of `serve_peer` at the other.

* `PeerLink.step`: a request is written, the seeder has a turn, the answer is read, or the
  worker closes the connection, in any order that the two ends allow.
* `LinkEvent.Orderly` (**the condition**): the calls on the socket split the bytes as they like
  or are interrupted; a worker that waits too long gives up before the first byte.
* `InOrder` (**the invariant**): what is in flight are whole frames, the oldest first.
* `answers_in_order`: the worker reads the answers in the order of its requests, so after each
  answer that it has given up it reads that to an earlier request; the index in the answer
  keeps it from taking one piece for another.
-/

namespace P2PShare

open Cursor Reader PartialIo

/-! ### The two ends -/

/-- The fields of a message that `fetch_piece` looks at. -/
def Msg.fields (m : Msg) : UInt16 × UInt16 × Str := (m.type, m.status, m.payload)

/-- The request of `fetch_piece`. -/
def pieceRequest (k : ShareKey) (index : UInt32) : Msg :=
  ⟨MsgType.pieceRequest.code, 0, putPieceRequest k index⟩

/-- The answer of `serve_peer` to one request. -/
def peerAnswer (shares : ShareKey → Option PieceStore) (type : UInt16) (payload : Str) : Msg :=
  let (t, status, reply) := servePeer shares type payload
  ⟨t.code, status.code, reply⟩

/-- The answer to the request for a piece. -/
def answerTo (k : ShareKey) (index : UInt32) (shares : ShareKey → Option PieceStore) : Msg :=
  peerAnswer shares MsgType.pieceRequest.code (putPieceRequest k index)

/-- A connection: the bytes on their way to the seeder and back, the piece that the worker
waits for, whether the worker and the seeder have closed it and, for the record, the
pieces that were asked for, what the seeder has answered, and how each `fetch_piece` that
has returned came out: the piece, and the frame that was received, if one was. -/
structure PeerLink where
  up : Str
  down : Str
  fetching : Option UInt32
  hungUp : Bool
  closed : Bool
  asked : List UInt32
  served : List Msg
  fetches : List (UInt32 × Option Msg)

/-- What can happen on a connection. -/
inductive LinkEvent
  /-- `fetch_piece` sends its request. -/
  | ask (index : UInt32) (writes : List IoCall)
  /-- One turn of the loop of `serve_peer`, with the share table that it finds. -/
  | serve (shares : ShareKey → Option PieceStore) (reads writes : List IoCall)
  /-- `fetch_piece` receives, and returns. -/
  | take (reads : List IoCall)
  /-- `peer_worker` closes the socket. -/
  | hangUp

namespace PeerLink

/-- The connection is made. -/
def start : PeerLink := ⟨[], [], none, false, false, [], [], []⟩

/-- `fetch_piece` returns. -/
def returned (l : PeerLink) (index : UInt32) (down : Str) (got : Option Msg) : PeerLink :=
  { l with down := down, fetching := none, fetches := l.fetches ++ [(index, got)] }

/-- One step. Each end waits for the rest of a frame as long as the other has not closed the
connection. -/
def step (k : ShareKey) (l : PeerLink) : LinkEvent → Option PeerLink
  | .ask index writes =>
      if l.fetching.isSome ∨ l.hungUp then none
      else
        let r := sendMsg writes (pieceRequest k index)
        let l' := { l with up := l.up ++ r.out, asked := l.asked ++ [index] }
        some (if r.result = .done then { l' with fetching := some index }
          else l'.returned index l'.down none)
  | .serve shares reads writes =>
      if l.closed then none
      else
        match recvMsg reads l.up with
        | (.message hdr payload, rest, _) =>
            let reply := peerAnswer shares hdr.type payload
            some { l with
              up := rest
              down := l.down ++ (sendMsg writes reply).out
              served := l.served ++ [reply] }
        | (.closed, rest, _) =>
            if l.hungUp then some { l with up := rest, closed := true } else none
        | (.error, rest, _) => some { l with up := rest, closed := true }
  | .take reads =>
      match l.fetching with
      | none => none
      | some index =>
          match recvMsg reads l.down with
          | (.message hdr payload, rest, _) =>
              some (l.returned index rest (some ⟨hdr.type, hdr.status, payload⟩))
          | (.closed, rest, _) => if l.closed then some (l.returned index rest none) else none
          | (.error, rest, _) => some (l.returned index rest none)
  | .hangUp =>
      if l.fetching.isSome ∨ l.hungUp then none else some { l with hungUp := true }

end PeerLink

/-- The shares with this key hold no piece that is longer than a piece. -/
def Modest (k : ShareKey) (shares : ShareKey → Option PieceStore) : Prop :=
  ∀ store ∈ shares k, ∀ i, ∀ data ∈ store.readPiece i, data.length ≤ pieceSize

/-- The calls on the socket are undisturbed, but for the worker giving up before the first
byte of an answer has come. -/
def LinkEvent.Orderly (k : ShareKey) : LinkEvent → Prop
  | .ask _ writes => Undisturbed writes
  | .serve shares reads writes => Modest k shares ∧ Undisturbed reads ∧ Undisturbed writes
  | .take reads => Undisturbed reads ∨ FailsAtOnce reads
  | .hangUp => True

/-- The share tables that the seeder has found in its turns. -/
def tables : List LinkEvent → List (ShareKey → Option PieceStore) :=
  List.filterMap fun
    | .serve shares _ _ => some shares
    | .ask .. | .take _ | .hangUp => none

/-! ### One message -/

/-- A read that fails at once leaves the stream as it was. -/
lemma recvMsg_failsAtOnce {calls : List IoCall} (h : FailsAtOnce calls) (stream : Str) :
    ∃ calls', recvMsg calls stream = (.error, stream, calls') := by
  obtain ⟨calls', hread⟩ := readAll_failsAtOnce h stream 11
  exact ⟨calls', by rw [recvMsg, MsgHeader.size, hread]⟩

/-- Nothing to read is the end of the stream. -/
lemma recvMsg_nil {calls : List IoCall} (h : Undisturbed calls) :
    ∃ calls', recvMsg calls [] = (.closed, [], calls') := by
  have hresult := result_readAll calls ([] : Str) MsgHeader.size h
  rw [if_neg (by decide)] at hresult
  have hrest := readAll_ended calls ([] : Str) MsgHeader.size hresult
  refine ⟨(readAll calls ([] : Str) MsgHeader.size).calls, ?_⟩
  rw [recvMsg]
  dsimp only
  rw [hresult, hrest]

section

variable {k : ShareKey} {index : UInt32} {shares : ShareKey → Option PieceStore}

lemma length_putPieceRequest (k : ShareKey) (index : UInt32) :
    (putPieceRequest k index).length = k.group.length + k.file.length + 12 := by
  have hindex : (putU32 index).length = 4 := length_leBytes 4 _
  rw [putPieceRequest, List.length_append, List.length_append, length_putStr, length_putStr, hindex]
  omega

/-- **What the seeder answers**: the piece that its store reads, or that there is none. -/
lemma answerTo_cases (hgroup : k.group.length < 2 ^ 32) (hfile : k.file.length < 2 ^ 32) :
    (∃ store data, shares k = some store ∧ store.readPiece index.toNat = some data ∧
      answerTo k index shares = ⟨MsgType.pieceData.code, Status.ok.code, putU32 index ++ data⟩) ∨
    answerTo k index shares = ⟨MsgType.pieceData.code, Status.notFound.code, []⟩ := by
  have hreq := (decodes_pieceRequest k index hgroup hfile).1
  rw [answerTo, peerAnswer]
  cases hread : (shares k).bind fun store => store.readPiece index.toNat with
  | none =>
      refine .inr ?_
      rw [servePeer, MsgType.ofCode_code]
      dsimp only
      rw [hreq]
      dsimp only
      rw [hread]
  | some data =>
      obtain ⟨store, hstore, hdata⟩ := Option.bind_eq_some_iff.mp hread
      refine .inl ⟨store, data, hstore, hdata, ?_⟩
      rw [servePeer_piece hreq hstore hdata]

/-- Such an answer is short enough to be received. -/
lemma length_answerTo_le (hgroup : k.group.length < 2 ^ 32) (hfile : k.file.length < 2 ^ 32)
    (h : Modest k shares) : (answerTo k index shares).payload.length ≤ maxPayload := by
  rcases answerTo_cases hgroup hfile with ⟨store, data, hstore, hdata, heq⟩ | heq
  · have hlen := h store hstore index.toNat data hdata
    have hindex : (putU32 index).length = 4 := length_leBytes 4 _
    have hmax : maxPayload = pieceSize + 8192 := rfl
    rw [heq]
    dsimp only
    rw [List.length_append, hindex]
    omega
  · rw [heq]
    exact Nat.zero_le _

/-- **No piece is taken for another**: what `fetch_piece` returns is what the seeder has read
for this index. -/
lemma fetchPiece_answerTo (hgroup : k.group.length < 2 ^ 32) (hfile : k.file.length < 2 ^ 32)
    {wanted : UInt32} {data : Str}
    (h : fetchPiece wanted.toNat (some (answerTo k index shares).fields) = some data) :
    ∃ store, shares k = some store ∧ store.readPiece wanted.toNat = some data := by
  rcases answerTo_cases hgroup hfile with ⟨store, data', hstore, hdata, heq⟩ | heq
  · have hdec : decode getU32 (putU32 index ++ data') = some index :=
      (decode_eq_some_iff codec_u32).mpr ⟨trivial, data', rfl⟩
    have hlen : (putU32 index).length = 4 := length_leBytes 4 _
    rw [heq, Msg.fields, fetchPiece] at h
    simp only [Option.bind_eq_bind, Option.bind_some, hdec] at h
    rw [if_neg (by simp)] at h
    split at h
    · next hindex =>
        rw [← hlen, List.drop_left] at h
        obtain rfl := Option.some.inj h
        exact ⟨store, hstore, hindex ▸ hdata⟩
    · cases h
  · rw [heq, Msg.fields, fetchPiece] at h
    simp only [Option.bind_eq_bind, Option.bind_some] at h
    rw [if_pos (.inr (by decide))] at h
    cases h

end

/-! ### The order of the answers -/

section

variable {α β γ : Type} {f : α → β → γ} {as : List α} {bs : List β}

/-- What has no partner does not matter. -/
lemma zipWith_append_left (h : bs.length ≤ as.length) (as' : List α) :
    List.zipWith f (as ++ as') bs = List.zipWith f as bs := by
  induction bs generalizing as with
  | nil => rw [List.zipWith_nil_right, List.zipWith_nil_right]
  | cons b bs ih =>
      cases as with
      | nil => cases h
      | cons a as => exact congrArg (f a b :: ·) (ih (Nat.le_of_succ_le_succ h))

lemma zipWith_append_right (h : as.length ≤ bs.length) (bs' : List β) :
    List.zipWith f as (bs ++ bs') = List.zipWith f as bs := by
  rw [List.zipWith_comm, zipWith_append_left h, List.zipWith_comm]

/-- The first without a partner gets one. -/
lemma zipWith_concat {a : α} {rest : List α} (h : as.drop bs.length = a :: rest) (b : β) :
    List.zipWith f as (bs ++ [b]) = List.zipWith f as bs ++ [f a b] := by
  have hlt : bs.length < as.length := by
    have hlen := congrArg List.length h
    rw [List.length_drop, List.length_cons] at hlen
    omega
  obtain ⟨done, rfl, hdone⟩ : ∃ done, as = done ++ a :: rest ∧ done.length = bs.length :=
    ⟨as.take bs.length, by rw [← h, List.take_append_drop], List.length_take_of_le hlt.le⟩
  rw [List.zipWith_append hdone, zipWith_append_left hdone.ge, List.zipWith_cons_cons,
    List.zipWith_nil_right]

/-- Pairs of which all second parts are there, and come in the order of the first parts. -/
lemma prefix_zipWith_pairs {ps : List (α × Option γ)} (hfst : ps.map Prod.fst <+: as)
    (hsnd : ps.filterMap Prod.snd <+: List.zipWith f as bs) (hall : ∀ p ∈ ps, p.2.isSome) :
    ps <+: List.zipWith (fun a b => (a, some (f a b))) as bs := by
  induction ps generalizing as bs with
  | nil => exact List.nil_prefix
  | cons p ps ih =>
      obtain ⟨a, c⟩ := p
      obtain ⟨c, rfl⟩ := Option.isSome_iff_exists.mp (hall (a, c) List.mem_cons_self)
      cases as with
      | nil => exact absurd (List.prefix_nil.mp hfst) (by simp)
      | cons a' as =>
          obtain ⟨rfl, hfst'⟩ : a = a' ∧ ps.map Prod.fst <+: as := List.cons_prefix_cons.mp hfst
          cases bs with
          | nil => exact absurd (List.prefix_nil.mp hsnd) (by simp)
          | cons b bs =>
              obtain ⟨rfl, hsnd'⟩ : c = f a b ∧ ps.filterMap Prod.snd <+: List.zipWith f as bs :=
                List.cons_prefix_cons.mp hsnd
              exact List.cons_prefix_cons.mpr
                ⟨rfl, ih hfst' hsnd' fun x hx => hall x (List.mem_cons_of_mem _ hx)⟩

end

namespace PeerLink

variable {k : ShareKey} {l l' : PeerLink} {e : LinkEvent}
  {ts : List (ShareKey → Option PieceStore)}

/-- **The invariant**, with the share tables of the turns so far. -/
structure InOrder (k : ShareKey) (ts : List (ShareKey → Option PieceStore)) (l : PeerLink) :
    Prop where
  asked : l.asked = l.fetches.map Prod.fst ++ l.fetching.toList
  served : l.served = List.zipWith (answerTo k) l.asked ts
  up : l.up = (l.asked.drop ts.length).flatMap fun i => (pieceRequest k i).frame
  down : ∃ unread, l.served = l.fetches.filterMap Prod.snd ++ unread ∧
    l.down = unread.flatMap Msg.frame
  short : ∀ m ∈ l.served, m.payload.length ≤ maxPayload
  ahead : l.hungUp = false → ts.length ≤ l.asked.length
  idle : l.hungUp = true → l.fetching = none
  closed : l.closed = true → l.hungUp = true

lemma inOrder_start (k : ShareKey) : InOrder k [] start where
  asked := rfl
  served := rfl
  up := rfl
  down := ⟨[], rfl, rfl⟩
  short := fun m hm => by cases hm
  ahead := fun _ => Nat.zero_le _
  idle := fun _ => rfl
  closed := fun h => by cases h

/-- A request that has not been answered. -/
lemma InOrder.ask (h : InOrder k ts l) (hfetching : l.fetching = none) (hup : l.hungUp = false)
    (index : UInt32) :
    InOrder k ts { l with
      up := l.up ++ (pieceRequest k index).frame
      asked := l.asked ++ [index]
      fetching := some index } := by
  have hahead := h.ahead hup
  refine ⟨?_, ?_, ?_, h.down, h.short, fun _ => ?_, fun hhung => ?_, h.closed⟩
  · have hasked := h.asked
    rw [hfetching, Option.toList_none, List.append_nil] at hasked
    exact congrArg (· ++ [index]) hasked
  · dsimp only
    rw [h.served, zipWith_append_left hahead]
  · dsimp only
    rw [h.up, List.drop_append_of_le_length hahead, List.flatMap_append, List.flatMap_singleton]
  · dsimp only
    rw [List.length_append]
    omega
  · rw [hup] at hhung
    cases hhung

/-- **A turn of the seeder** takes the oldest request, or finds that there is none. -/
lemma InOrder.recv_up (h : InOrder k ts l) (hk : k.group.length + k.file.length + 12 ≤ maxPayload)
    {reads : List IoCall} (hreads : Undisturbed reads) :
    (∃ index todo calls', l.asked.drop ts.length = index :: todo ∧
      recvMsg reads l.up = (.message (pieceRequest k index).header (putPieceRequest k index),
        todo.flatMap fun i => (pieceRequest k i).frame, calls')) ∨
    ∃ calls', l.asked.length ≤ ts.length ∧ recvMsg reads l.up = (.closed, [], calls') := by
  rw [h.up]
  cases hdrop : l.asked.drop ts.length with
  | nil =>
      obtain ⟨calls', hrecv⟩ := recvMsg_nil hreads
      exact .inr ⟨calls', List.drop_eq_nil_iff.mp hdrop, hrecv⟩
  | cons index todo =>
      have hsize : (pieceRequest k index).payload.length ≤ maxPayload :=
        (length_putPieceRequest k index).trans_le hk
      obtain ⟨calls', -, hrecv⟩ := recvMsg_frame hreads hsize
        (todo.flatMap fun i => (pieceRequest k i).frame)
      exact .inl ⟨index, todo, calls', rfl, by rw [List.flatMap_cons]; exact hrecv⟩

/-- **A request is answered.** -/
lemma InOrder.serve (h : InOrder k ts l) {index : UInt32} {todo : List UInt32}
    (hdrop : l.asked.drop ts.length = index :: todo) {shares : ShareKey → Option PieceStore}
    (hshort : (answerTo k index shares).payload.length ≤ maxPayload) :
    InOrder k (ts ++ [shares]) { l with
      up := todo.flatMap fun i => (pieceRequest k i).frame
      down := l.down ++ (answerTo k index shares).frame
      served := l.served ++ [answerTo k index shares] } := by
  obtain ⟨unread, hserved, hdown⟩ := h.down
  have hlen := congrArg List.length hdrop
  rw [List.length_drop, List.length_cons] at hlen
  refine ⟨h.asked, ?_, ?_, ⟨unread ++ [answerTo k index shares], ?_, ?_⟩, fun m hm => ?_,
    fun _ => ?_, h.idle, h.closed⟩
  · dsimp only
    rw [h.served, zipWith_concat hdrop]
  · dsimp only
    rw [List.length_append, List.length_singleton, ← List.drop_drop, hdrop, List.drop_one,
      List.tail_cons]
  · dsimp only
    rw [hserved, List.append_assoc]
  · dsimp only
    rw [hdown, List.flatMap_append, List.flatMap_singleton]
  · rcases List.mem_append.mp hm with hm | hm
    · exact h.short m hm
    · rw [List.mem_singleton.mp hm]
      exact hshort
  · dsimp only
    rw [List.length_append, List.length_singleton]
    omega

/-- The seeder finds that the worker has closed the connection. -/
lemma InOrder.close (h : InOrder k ts l) (hall : l.asked.length ≤ ts.length)
    (hhung : l.hungUp = true) (shares : ShareKey → Option PieceStore) :
    InOrder k (ts ++ [shares]) { l with up := [], closed := true } := by
  refine ⟨h.asked, ?_, ?_, h.down, h.short, fun hup => ?_, h.idle, fun _ => hhung⟩
  · dsimp only
    rw [h.served, zipWith_append_right hall]
  · dsimp only
    rw [List.length_append, List.drop_of_length_le (by omega)]
    rfl
  · dsimp only at hup
    rw [hhung] at hup
    cases hup

/-- **An answer is read**, the oldest that has not been. -/
lemma InOrder.take (h : InOrder k ts l) {index : UInt32} (hfetching : l.fetching = some index)
    {m : Msg} {unread : List Msg}
    (hserved : l.served = l.fetches.filterMap Prod.snd ++ m :: unread) :
    InOrder k ts (l.returned index (unread.flatMap Msg.frame) (some m)) := by
  refine ⟨?_, h.served, h.up, ⟨unread, ?_, rfl⟩, h.short, h.ahead, fun _ => rfl, h.closed⟩
  · rw [returned, h.asked, hfetching]
    simp
  · rw [returned, List.filterMap_append]
    dsimp only
    rw [hserved, List.append_assoc]
    rfl

/-- A worker gives up. -/
lemma InOrder.giveUp (h : InOrder k ts l) {index : UInt32} (hfetching : l.fetching = some index) :
    InOrder k ts (l.returned index l.down none) := by
  refine ⟨?_, h.served, h.up, ?_, h.short, h.ahead, fun _ => rfl, h.closed⟩
  · rw [returned, h.asked, hfetching]
    simp
  · obtain ⟨unread, hserved, hdown⟩ := h.down
    refine ⟨unread, ?_, hdown⟩
    rw [returned, List.filterMap_append]
    dsimp only
    rw [hserved]
    simp

/-- **The step lemma.** -/
lemma InOrder.step (hk : k.group.length + k.file.length + 12 ≤ maxPayload) (h : InOrder k ts l)
    (he : e.Orderly k) (hstep : l.step k e = some l') : InOrder k (ts ++ tables [e]) l' := by
  have hmax : maxPayload < 2 ^ 32 := by decide
  cases e with
  | ask index writes =>
      rw [PeerLink.step] at hstep
      split at hstep
      · cases hstep
      · next hfree =>
          obtain ⟨hresult, hout, -⟩ := sendMsg_undisturbed he (pieceRequest k index)
          dsimp only at hstep
          rw [if_pos hresult, hout] at hstep
          obtain rfl := Option.some.inj hstep
          have hts : ts ++ tables [.ask index writes] = ts := List.append_nil ts
          rw [hts]
          exact h.ask (by simpa using fun hf => hfree (.inl hf))
            (by simpa using fun hf => hfree (.inr hf)) index
  | serve shares reads writes =>
      obtain ⟨hmodest, hreads, hwrites⟩ := he
      have hts : ts ++ tables [.serve shares reads writes] = ts ++ [shares] := rfl
      rw [hts]
      rw [PeerLink.step] at hstep
      split at hstep
      · cases hstep
      -- a request is read whole, or the connection has ended
      · rcases h.recv_up hk hreads with ⟨index, todo, calls', hdrop, hrecv⟩ | ⟨calls', hall, hrecv⟩
        · rw [hrecv] at hstep
          dsimp only at hstep
          have hanswer : peerAnswer shares (pieceRequest k index).header.type
              (putPieceRequest k index) = answerTo k index shares := rfl
          rw [hanswer, (sendMsg_undisturbed hwrites _).2.1] at hstep
          obtain rfl := Option.some.inj hstep
          exact h.serve hdrop (length_answerTo_le (by omega) (by omega) hmodest)
        · rw [hrecv] at hstep
          dsimp only at hstep
          split at hstep
          · next hhung =>
              obtain rfl := Option.some.inj hstep
              exact h.close hall hhung shares
          · cases hstep
  | take reads =>
      have hts : ts ++ tables [.take reads] = ts := List.append_nil ts
      rw [hts]
      rw [PeerLink.step] at hstep
      split at hstep
      · cases hstep
      · next index hfetching =>
          -- the reads bring a whole frame, or the first of them fails
          rcases he with hreads | hfails
          · obtain ⟨unread, hserved, hdown⟩ := h.down
            rw [hdown] at hstep
            cases unread with
            | nil =>
                obtain ⟨calls', hrecv⟩ := recvMsg_nil hreads
                rw [List.flatMap_nil, hrecv] at hstep
                dsimp only at hstep
                -- the seeder does not close the connection before the worker does
                split at hstep
                · next hclosed =>
                    rw [h.idle (h.closed hclosed)] at hfetching
                    cases hfetching
                · cases hstep
            | cons m unread =>
                have hm : m.payload.length ≤ maxPayload := h.short m (by rw [hserved]; simp)
                obtain ⟨calls', -, hrecv⟩ := recvMsg_frame hreads hm (unread.flatMap Msg.frame)
                rw [List.flatMap_cons, hrecv] at hstep
                obtain rfl := Option.some.inj hstep
                exact h.take hfetching hserved
          · obtain ⟨calls', hrecv⟩ := recvMsg_failsAtOnce hfails l.down
            rw [hrecv] at hstep
            obtain rfl := Option.some.inj hstep
            exact h.giveUp hfetching
  | hangUp =>
      rw [PeerLink.step] at hstep
      split at hstep
      · cases hstep
      · next hfree =>
          obtain rfl := Option.some.inj hstep
          have hts : ts ++ tables [.hangUp] = ts := List.append_nil ts
          rw [hts]
          have hidle : l.fetching = none := by simpa using fun hf => hfree (.inl hf)
          exact ⟨h.asked, h.served, h.up, h.down, h.short, fun hup => (by cases hup),
            fun _ => hidle, fun _ => rfl⟩

/-- **The run lemma.** -/
lemma InOrder.run (hk : k.group.length + k.file.length + 12 ≤ maxPayload) {es : List LinkEvent}
    (h : InOrder k ts l) (hes : ∀ e ∈ es, e.Orderly k)
    (hexec : exec (PeerLink.step k) l es = some l') : InOrder k (ts ++ tables es) l' := by
  induction es generalizing l ts with
  | nil =>
      obtain rfl : l = l' := Option.some.inj hexec
      have hts : ts ++ tables [] = ts := List.append_nil ts
      rwa [hts]
  | cons e es ih =>
      obtain ⟨l₁, hstep, hrest⟩ := Option.bind_eq_some_iff.mp hexec
      have hts : ts ++ tables (e :: es) = (ts ++ tables [e]) ++ tables es := by
        rw [List.append_assoc, tables, ← List.filterMap_append, List.singleton_append]
      rw [hts]
      exact ih (h.step hk (hes e List.mem_cons_self) hstep)
        (fun x hx => hes x (List.mem_cons_of_mem e hx)) hrest

/-- **Nobody waits in vain**: while the worker waits, an answer has come or the seeder has a
request to answer. -/
lemma InOrder.progress (hk : k.group.length + k.file.length + 12 ≤ maxPayload) (h : InOrder k ts l)
    (hfetching : l.fetching.isSome) :
    (l.step k (.take [])).isSome ∨ ∀ shares, (l.step k (.serve shares [] [])).isSome := by
  obtain ⟨index, hindex⟩ := Option.isSome_iff_exists.mp hfetching
  obtain ⟨unread, hserved, hdown⟩ := h.down
  have hup : l.hungUp = false := by
    by_contra hhung
    rw [h.idle (by simpa using hhung)] at hfetching
    cases hfetching
  have hopen : l.closed = false := by
    by_contra hclosed
    rw [h.closed (by simpa using hclosed)] at hup
    cases hup
  cases unread with
  | cons m unread =>
      left
      have hm : m.payload.length ≤ maxPayload := h.short m (by rw [hserved]; simp)
      obtain ⟨calls', -, hrecv⟩ := recvMsg_frame undisturbed_nil hm (unread.flatMap Msg.frame)
      rw [PeerLink.step, hindex, hdown, List.flatMap_cons]
      dsimp only
      rw [hrecv]
      rfl
  | nil =>
      right
      intro shares
      rcases h.recv_up hk undisturbed_nil with ⟨i, todo, calls', -, hrecv⟩ | ⟨calls', hall, -⟩
      · rw [PeerLink.step, if_neg (by rw [hopen]; decide), hrecv]
        rfl
      · -- all requests are answered, and the last answer has not been read
        have hasked := congrArg List.length h.asked
        have hanswered := congrArg List.length h.served
        have hread := congrArg List.length hserved
        have hfew : (l.fetches.filterMap Prod.snd).length ≤ l.fetches.length :=
          List.length_filterMap_le ..
        rw [hindex, List.length_append, List.length_map, Option.toList_some,
          List.length_singleton] at hasked
        rw [List.length_zipWith] at hanswered
        rw [List.length_append, List.length_nil] at hread
        omega

/-- **Answers come in order**: over a connection on which the calls split the bytes as they
like, and the worker gives up waiting any number of times, the seeder answers the requests in
order, each with the share table of its turn, and the worker reads whole answers in this
order, from the first on. So it reads the answers to its own requests as long as it has not
given up, and later those to earlier ones; the data that `fetch_piece` returns is always what
a store of the seeder has read as the piece that was asked for. -/
theorem answers_in_order (hk : k.group.length + k.file.length + 12 ≤ maxPayload)
    {es : List LinkEvent} (hes : ∀ e ∈ es, e.Orderly k) (hexec : exec (step k) start es = some l) :
    l.asked = l.fetches.map Prod.fst ++ l.fetching.toList ∧
    l.served = List.zipWith (answerTo k) l.asked (tables es) ∧
    l.fetches.filterMap Prod.snd <+: l.served ∧
    ((∀ p ∈ l.fetches, p.2.isSome) →
      l.fetches <+: List.zipWith (fun index shares => (index, some (answerTo k index shares)))
        l.asked (tables es)) ∧
    (∀ index got, (index, got) ∈ l.fetches →
      ∀ data, fetchPiece index.toNat (got.map Msg.fields) = some data →
        ∃ shares ∈ tables es, ∃ store, shares k = some store ∧
          store.readPiece index.toNat = some data) ∧
    (l.fetching.isSome →
      (l.step k (.take [])).isSome ∨ ∀ shares, (l.step k (.serve shares [] [])).isSome) := by
  have hmax : maxPayload < 2 ^ 32 := by decide
  have h : InOrder k (tables es) l := (inOrder_start k).run hk hes hexec
  obtain ⟨unread, hserved, -⟩ := h.down
  have hread : l.fetches.filterMap Prod.snd <+: l.served := ⟨unread, hserved.symm⟩
  refine ⟨h.asked, h.served, hread, fun hall => ?_, fun index got hmem data hdata => ?_,
    h.progress hk⟩
  · exact prefix_zipWith_pairs ⟨l.fetching.toList, h.asked.symm⟩ (h.served ▸ hread) hall
  · cases got with
    | none => cases hdata
    | some m =>
        have hm : m ∈ l.served := hread.subset (List.mem_filterMap.mpr ⟨(index, some m), hmem, rfl⟩)
        rw [h.served, ← List.map_uncurry_zip_eq_zipWith] at hm
        obtain ⟨⟨asked, shares⟩, hmem', rfl⟩ := List.mem_map.mp hm
        obtain ⟨store, hstore, hpiece⟩ := fetchPiece_answerTo (by omega) (by omega) hdata
        exact ⟨shares, (List.of_mem_zip hmem').2, store, hstore, hpiece⟩

/-- A seeder with a piece of one byte. -/
def oneByteShare : ShareKey → Option PieceStore :=
  fun _ => some (PieceStore.openForSeed [3] 1 1)

lemma modest_oneByteShare (k : ShareKey) : Modest k oneByteShare := by
  intro store hstore i data hdata
  obtain rfl := Option.some.inj hstore
  rw [PieceStore.readPiece] at hdata
  split at hdata
  · cases hdata
  · next hi =>
      obtain rfl : i = 0 := by
        have hlt : ¬ 1 ≤ i := hi
        omega
      obtain rfl : [3] = data := Option.some.inj hdata
      decide

/-- The worker gives the piece up, and finds its answer when it waits for the next. -/
def tooLate : List LinkEvent :=
  [.ask 0 [.upTo 0, .interrupted], .take [.interrupted, .failed], .ask 1 [],
    .serve oneByteShare [.upTo 2] [], .take [.upTo 0], .hangUp, .serve oneByteShare [] [],
    .serve oneByteShare [] []]

theorem answers_in_order_tooLate :
    let l := (exec (step ⟨[5], [7]⟩) start tooLate).get (by decide +kernel)
    l.fetches.filterMap Prod.snd <+: l.served ∧
      l.fetches =
        [(0, none), (1, some ⟨MsgType.pieceData.code, Status.ok.code, putU32 0 ++ [3]⟩)] ∧
      fetchPiece 1 (some (MsgType.pieceData.code, Status.ok.code, putU32 0 ++ [3])) = none := by
  intro l
  have hes : ∀ e ∈ tooLate, e.Orderly ⟨[5], [7]⟩ := by
    intro e he
    simp only [tooLate, List.mem_cons, List.not_mem_nil, or_false] at he
    rcases he with rfl | rfl | rfl | rfl | rfl | rfl | rfl | rfl
    · simp [LinkEvent.Orderly, Undisturbed]
    · exact .inr trivial
    · exact undisturbed_nil
    · exact ⟨modest_oneByteShare _, by simp [Undisturbed], undisturbed_nil⟩
    · exact .inl (by simp [Undisturbed])
    · trivial
    · exact ⟨modest_oneByteShare _, undisturbed_nil, undisturbed_nil⟩
    · exact ⟨modest_oneByteShare _, undisturbed_nil, undisturbed_nil⟩
  have hexec : exec (step ⟨[5], [7]⟩) start tooLate = some l := (Option.some_get _).symm
  exact ⟨(answers_in_order (by decide) hes hexec).2.2.1, by decide +kernel, by decide +kernel⟩

end PeerLink

end P2PShare
