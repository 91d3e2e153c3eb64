import P2PShare.Common.Buffer
import P2PShare.Lib.PartialIo

/-!
`common/net.cpp`: whole messages over a stream socket.

* `sendMsg` and `recvMsg`: `send_msg` and `recv_msg` on top of `send_all` and `recv_all`,
  which are `PartialIo.writeAll` and `PartialIo.readAll` of bytes; `frame` is what a
  message looks like on the wire.
* `recvMsg_eq_message`: a message that is received is a whole frame that came next.
* `Broken`: the stream is cut inside a frame, or its next header is not acceptable.
* `framing` (**framing survives any fragmentation**): however the calls of both sides
  split the bytes, the messages arrive as they were sent; a broken frame never does.
-/

namespace P2PShare

open PartialIo

/-- `PROTO_MAGIC`. -/
def protoMagic : UInt32 := 0x50325046

/-! ### Byte order -/

/-- `htonl` on a little-endian machine. -/
def htonl (v : UInt32) : UInt32 := UInt32.ofNat (leNat (leBytes 4 v.toNat).reverse)

/-- `ntohl`. -/
def ntohl (v : UInt32) : UInt32 := htonl v

/-- `htons` on a little-endian machine. -/
def htons (v : UInt16) : UInt16 := UInt16.ofNat (leNat (leBytes 2 v.toNat).reverse)

/-- `ntohs`. -/
def ntohs (v : UInt16) : UInt16 := htons v

/-- The bytes of a number in network order, read as a number and written again. -/
lemma leNat_reverse_lt (n v : ℕ) : leNat (leBytes n v).reverse < 256 ^ n := by
  have h := leNat_lt (leBytes n v).reverse
  rwa [List.length_reverse, length_leBytes] at h

/-- Reversing the bytes twice changes nothing. -/
lemma leNat_reverse_reverse {n v : ℕ} (h : v < 256 ^ n) :
    leNat (leBytes n (leNat (leBytes n v).reverse)).reverse = v := by
  have hrev := leBytes_leNat (leBytes n v).reverse
  rw [List.length_reverse, length_leBytes] at hrev
  rw [hrev, List.reverse_reverse, leNat_leBytes h]

lemma ntohl_htonl (v : UInt32) : ntohl (htonl v) = v := by
  have hv : v.toNat < 256 ^ 4 := by
    have := v.toNat_lt
    omega
  have hlt := leNat_reverse_lt 4 v.toNat
  have hcast : (htonl v).toNat = leNat (leBytes 4 v.toNat).reverse := by
    rw [htonl, UInt32.toNat_ofNat']
    omega
  rw [ntohl, htonl, hcast, leNat_reverse_reverse hv, UInt32.ofNat_toNat]

lemma ntohs_htons (v : UInt16) : ntohs (htons v) = v := by
  have hv : v.toNat < 256 ^ 2 := by
    have := v.toNat_lt
    omega
  have hlt := leNat_reverse_lt 2 v.toNat
  have hcast : (htons v).toNat = leNat (leBytes 2 v.toNat).reverse := by
    rw [htons, UInt16.toNat_ofNat']
    omega
  rw [ntohs, htons, hcast, leNat_reverse_reverse hv, UInt16.ofNat_toNat]

/-! ### The header -/

/-- `MsgHeader`. -/
@[ext]
structure MsgHeader where
  magic : UInt32
  type : UInt16
  status : UInt16
  length : UInt32
deriving DecidableEq

namespace MsgHeader

/-- The 12 bytes of a header in memory. -/
def bytes (h : MsgHeader) : Str :=
  putU32 h.magic ++ putU16 h.type ++ putU16 h.status ++ putU32 h.length

/-- The header that stands in these bytes. -/
def ofBytes (b : Str) : MsgHeader where
  magic := UInt32.ofNat (leNat (b.take 4))
  type := UInt16.ofNat (leNat ((b.drop 4).take 2))
  status := UInt16.ofNat (leNat ((b.drop 6).take 2))
  length := UInt32.ofNat (leNat ((b.drop 8).take 4))

/-- `sizeof(MsgHeader)`. -/
def size : ℕ := 12

/-- The fields in host order. -/
def toHost (h : MsgHeader) : MsgHeader :=
  ⟨ntohl h.magic, ntohs h.type, ntohs h.status, ntohl h.length⟩

/-- The fields in network order. -/
def toNetwork (h : MsgHeader) : MsgHeader :=
  ⟨htonl h.magic, htons h.type, htons h.status, htonl h.length⟩

lemma toHost_toNetwork (h : MsgHeader) : h.toNetwork.toHost = h := by
  rw [toNetwork, toHost]
  exact MsgHeader.ext (ntohl_htonl _) (ntohs_htons _) (ntohs_htons _) (ntohl_htonl _)

@[simp] lemma length_bytes (h : MsgHeader) : h.bytes.length = size := by
  have hmagic : (putU32 h.magic).length = 4 := length_leBytes 4 _
  have hlength : (putU32 h.length).length = 4 := length_leBytes 4 _
  rw [bytes, List.length_append, List.length_append, List.length_append, hmagic, hlength,
    length_putU16, length_putU16, size]

/-- A header is found again in its bytes. -/
lemma ofBytes_bytes (h : MsgHeader) : ofBytes h.bytes = h := by
  have hmagic : leNat (putU32 h.magic) = h.magic.toNat :=
    leNat_leBytes (by have := h.magic.toNat_lt; omega)
  have htype : leNat (putU16 h.type) = h.type.toNat :=
    leNat_leBytes (by have := h.type.toNat_lt; omega)
  have hstatus : leNat (putU16 h.status) = h.status.toNat :=
    leNat_leBytes (by have := h.status.toNat_lt; omega)
  have hlength : leNat (putU32 h.length) = h.length.toNat :=
    leNat_leBytes (by have := h.length.toNat_lt; omega)
  have h4 : ∀ v : UInt32, (putU32 v).length = 4 := fun v => length_leBytes 4 _
  rw [ofBytes, bytes]
  simp only [List.append_assoc]
  refine MsgHeader.ext ?_ ?_ ?_ ?_
  · dsimp only
    rw [← h4 h.magic, List.take_left, hmagic, UInt32.ofNat_toNat]
  · dsimp only
    rw [← h4 h.magic, List.drop_left, ← length_putU16 h.type, List.take_left, htype,
      UInt16.ofNat_toNat]
  · dsimp only
    rw [show 6 = (putU32 h.magic).length + (putU16 h.type).length by simp [h4], ← List.drop_drop,
      List.drop_left, List.drop_left, ← length_putU16 h.status, List.take_left, hstatus,
      UInt16.ofNat_toNat]
  · dsimp only
    rw [show 8 = (putU32 h.magic).length + ((putU16 h.type).length + (putU16 h.status).length) by
        simp [h4], ← List.drop_drop, List.drop_left, ← List.drop_drop, List.drop_left,
      List.drop_left, ← h4 h.length, List.take_length, hlength, UInt32.ofNat_toNat]

end MsgHeader

/-! ### Messages -/

/-- What `send_msg` is called with. -/
structure Msg where
  type : UInt16
  status : UInt16
  payload : Str
deriving DecidableEq

namespace Msg

/-- The header that announces a message. -/
def header (m : Msg) : MsgHeader :=
  ⟨protoMagic, m.type, m.status, UInt32.ofNat m.payload.length⟩

/-- A message on the wire. -/
def frame (m : Msg) : Str := m.header.toNetwork.bytes ++ m.payload

end Msg

/-- `send_msg`: what it returns, what has been written, and the calls after it. -/
def sendMsg (calls : List IoCall) (m : Msg) : Written UInt8 :=
  let r := writeAll calls m.header.toNetwork.bytes
  if r.result ≠ .done then r
  else if m.payload = [] then r
  else
    let r' := writeAll r.calls m.payload
    ⟨r'.result, r.out ++ r'.out, r'.calls⟩

/-- What `recv_msg` returns: 1 with a header and a payload, 0, or -1. -/
inductive RecvResult
  | message (hdr : MsgHeader) (payload : Str)
  | closed
  | error
deriving DecidableEq

/-- `recv_msg`: what it returns, what is left of the stream, and the calls after it. -/
def recvMsg (calls : List IoCall) (stream : Str) : RecvResult × Str × List IoCall :=
  let r := readAll calls stream MsgHeader.size
  match r.result with
  | .ended => (.closed, r.rest, r.calls)
  | .failed => (.error, r.rest, r.calls)
  | .done =>
      let hdr := (MsgHeader.ofBytes r.block).toHost
      if hdr.magic ≠ protoMagic then (.error, r.rest, r.calls)
      else if maxPayload < hdr.length.toNat then (.error, r.rest, r.calls)
      else if hdr.length = 0 then (.message hdr [], r.rest, r.calls)
      else
        let r' := readAll r.calls r.rest hdr.length.toNat
        match r'.result with
        | .ended => (.closed, r'.rest, r'.calls)
        | .failed => (.error, r'.rest, r'.calls)
        | .done => (.message hdr r'.block, r'.rest, r'.calls)

/-- `send_msg` of one message after the other, as long as it returns 1. -/
def sendMsgs : List IoCall → List Msg → Written UInt8
  | calls, [] => ⟨.done, [], calls⟩
  | calls, m :: ms =>
      let r := sendMsg calls m
      if r.result ≠ .done then r
      else
        let r' := sendMsgs r.calls ms
        ⟨r'.result, r.out ++ r'.out, r'.calls⟩

/-- The results of this many calls of `recv_msg`. -/
def recvMsgs : ℕ → List IoCall → Str → List RecvResult
  | 0, _, _ => []
  | n + 1, calls, stream =>
      let r := recvMsg calls stream
      r.1 :: recvMsgs n r.2.2 r.2.1

/-! ### Undisturbed calls -/

lemma sendMsg_undisturbed {calls : List IoCall} (h : Undisturbed calls) (m : Msg) :
    (sendMsg calls m).result = .done ∧ (sendMsg calls m).out = m.frame ∧
      Undisturbed (sendMsg calls m).calls := by
  obtain ⟨hresult, hout, hcalls⟩ := writeAll_undisturbed calls m.header.toNetwork.bytes h
  rw [sendMsg, Msg.frame]
  dsimp only
  rw [if_neg (not_not.mpr hresult)]
  split
  · next hempty => rw [hempty, List.append_nil]; exact ⟨hresult, hout, hcalls⟩
  · obtain ⟨hresult', hout', hcalls'⟩ := writeAll_undisturbed _ m.payload hcalls
    exact ⟨hresult', by rw [hout, hout'], hcalls'⟩

/-- **All messages are written.** -/
lemma sendMsgs_undisturbed {calls : List IoCall} (h : Undisturbed calls) (msgs : List Msg) :
    (sendMsgs calls msgs).result = .done ∧ (sendMsgs calls msgs).out = msgs.flatMap Msg.frame := by
  induction msgs generalizing calls with
  | nil => exact ⟨rfl, rfl⟩
  | cons m msgs ih =>
      obtain ⟨hresult, hout, hcalls⟩ := sendMsg_undisturbed h m
      obtain ⟨hresult', hout'⟩ := ih hcalls
      rw [sendMsgs, if_neg (not_not.mpr hresult)]
      dsimp only
      rw [hout, hout', List.flatMap_cons]
      exact ⟨hresult', rfl⟩

/-- The length in a header is that of the payload. -/
lemma Msg.toNat_length {m : Msg} (h : m.payload.length ≤ maxPayload) :
    (UInt32.ofNat m.payload.length).toNat = m.payload.length := by
  have hmax : maxPayload < 2 ^ 32 := by decide
  rw [UInt32.toNat_ofNat', Nat.mod_eq_of_lt (h.trans_lt hmax)]

/-- **A frame is received as its message.** -/
lemma recvMsg_frame {calls : List IoCall} (h : Undisturbed calls) {m : Msg}
    (hlen : m.payload.length ≤ maxPayload) (rest : Str) :
    ∃ calls', Undisturbed calls' ∧
      recvMsg calls (m.frame ++ rest) = (.message m.header m.payload, rest, calls') := by
  obtain ⟨calls₁, hcalls₁, hhead⟩ :=
    readAll_undisturbed calls m.header.toNetwork.bytes (m.payload ++ rest) h
  rw [MsgHeader.length_bytes] at hhead
  have hhost : (MsgHeader.ofBytes m.header.toNetwork.bytes).toHost = m.header := by
    rw [MsgHeader.ofBytes_bytes, MsgHeader.toHost_toNetwork]
  have hlength : m.header.length.toNat = m.payload.length := m.toNat_length hlen
  rw [recvMsg, Msg.frame, List.append_assoc, hhead]
  dsimp only
  have hmagic : m.header.magic = protoMagic := rfl
  rw [hhost, if_neg (not_not.mpr hmagic), if_neg (by omega)]
  by_cases hempty : m.payload = []
  · have hzero : m.header.length = 0 := by
      rw [Msg.header, hempty]
      rfl
    rw [if_pos hzero, hempty]
    exact ⟨calls₁, hcalls₁, rfl⟩
  · have hzero : m.header.length ≠ 0 := by
      intro hz
      rw [hz] at hlength
      exact hempty (List.length_eq_zero_iff.mp hlength.symm)
    obtain ⟨calls₂, hcalls₂, hbody⟩ := readAll_undisturbed calls₁ m.payload rest hcalls₁
    rw [if_neg hzero, hlength, hbody]
    exact ⟨calls₂, hcalls₂, rfl⟩

/-- At the end of the stream `recv_msg` returns 0, again and again. -/
lemma recvMsgs_nil {calls : List IoCall} (h : Undisturbed calls) (n : ℕ) :
    recvMsgs n calls [] = List.replicate n .closed := by
  induction n generalizing calls with
  | zero => rfl
  | succ n ih =>
      have hresult := result_readAll calls ([] : Str) MsgHeader.size h
      rw [if_neg (by decide)] at hresult
      have hrest := readAll_ended calls ([] : Str) MsgHeader.size hresult
      have hcalls := undisturbed_readAll calls ([] : Str) MsgHeader.size h
      have hrecv : recvMsg calls [] =
          (.closed, [], (readAll calls ([] : Str) MsgHeader.size).calls) := by
        rw [recvMsg]
        dsimp only
        rw [hresult, hrest]
      rw [recvMsgs, hrecv, List.replicate_succ]
      exact congrArg (RecvResult.closed :: ·) (ih hcalls)

/-- **The messages come first**, and then whatever the rest of the stream gives. -/
lemma recvMsgs_frames {calls : List IoCall} (h : Undisturbed calls) {msgs : List Msg}
    (hmsgs : ∀ m ∈ msgs, m.payload.length ≤ maxPayload) (n : ℕ) (rest : Str) :
    ∃ calls', Undisturbed calls' ∧
      recvMsgs (msgs.length + n) calls (msgs.flatMap Msg.frame ++ rest) =
        msgs.map (fun m => .message m.header m.payload) ++ recvMsgs n calls' rest := by
  induction msgs generalizing calls with
  | nil => exact ⟨calls, h, by rw [List.length_nil, Nat.zero_add]; rfl⟩
  | cons m msgs ih =>
      obtain ⟨calls₁, hcalls₁, hfirst⟩ := recvMsg_frame h (hmsgs m (List.mem_cons_self ..))
        (msgs.flatMap Msg.frame ++ rest)
      obtain ⟨calls', hcalls', hothers⟩ :=
        ih hcalls₁ fun x hx => hmsgs x (List.mem_cons_of_mem m hx)
      refine ⟨calls', hcalls', ?_⟩
      rw [List.length_cons, Nat.add_right_comm, recvMsgs, List.flatMap_cons, List.append_assoc,
        hfirst, List.map_cons, List.cons_append]
      exact congrArg _ hothers

/-! ### Broken frames -/

namespace MsgHeader

lemma toNetwork_toHost (h : MsgHeader) : h.toHost.toNetwork = h := h.toHost_toNetwork

lemma toNetwork_injective : Function.Injective toNetwork := fun h h' heq => by
  rw [← toHost_toNetwork h, heq, toHost_toNetwork]

lemma bytes_injective : Function.Injective bytes := fun h h' heq => by
  rw [← ofBytes_bytes h, heq, ofBytes_bytes]

/-- Twelve bytes are those of the header in them. -/
lemma bytes_ofBytes {b : Str} (hb : b.length = size) : (ofBytes b).bytes = b := by
  have h32 : ∀ x : Str, x.length = 4 → putU32 (UInt32.ofNat (leNat x)) = x := by
    intro x hx
    have hlt := leNat_lt x
    rw [hx] at hlt
    have hback := leBytes_leNat x
    rw [hx] at hback
    rw [putU32, UInt32.toNat_ofNat', Nat.mod_eq_of_lt (by omega), hback]
  have h16 : ∀ x : Str, x.length = 2 → putU16 (UInt16.ofNat (leNat x)) = x := by
    intro x hx
    have hlt := leNat_lt x
    rw [hx] at hlt
    have hback := leBytes_leNat x
    rw [hx] at hback
    rw [putU16, UInt16.toNat_ofNat', Nat.mod_eq_of_lt (by omega), hback]
  rw [size] at hb
  rw [bytes, ofBytes]
  dsimp only
  rw [h32 _ (by rw [List.length_take]; omega),
    h16 _ (by rw [List.length_take, List.length_drop]; omega),
    h16 _ (by rw [List.length_take, List.length_drop]; omega),
    h32 _ (by rw [List.length_take, List.length_drop]; omega)]
  have h8 : (b.drop 8).take 4 = b.drop 8 :=
    List.take_of_length_le (by rw [List.length_drop]; omega)
  have h6 : (b.drop 6).take 2 ++ b.drop 8 = b.drop 6 := by
    rw [← List.drop_drop (i := 2) (j := 6), List.take_append_drop]
  have h4 : (b.drop 4).take 2 ++ b.drop 6 = b.drop 4 := by
    rw [← List.drop_drop (i := 2) (j := 4), List.take_append_drop]
  rw [h8, List.append_assoc, List.append_assoc, h6, h4, List.take_append_drop]

end MsgHeader

/-- **What is received is a whole frame** with an acceptable header, whatever the calls
were. -/
lemma recvMsg_eq_message {calls : List IoCall} {stream payload : Str} {hdr : MsgHeader}
    (h : (recvMsg calls stream).1 = .message hdr payload) :
    ∃ (m : Msg) (rest : Str), m.payload.length ≤ maxPayload ∧ stream = m.frame ++ rest ∧
      hdr = m.header ∧ payload = m.payload := by
  rw [recvMsg] at h
  dsimp only at h
  cases hresult : (readAll calls stream MsgHeader.size).result with
  | ended => rw [hresult] at h; cases h
  | failed => rw [hresult] at h; cases h
  | done =>
      rw [hresult] at h
      dsimp only at h
      -- a header has been read whole
      obtain ⟨hstream, hblock⟩ := readAll_done _ _ _ hresult
      generalize readAll calls stream MsgHeader.size = r at h hstream hblock
      have hbytes : (MsgHeader.ofBytes r.block).toHost.toNetwork.bytes = r.block := by
        rw [MsgHeader.toNetwork_toHost, MsgHeader.bytes_ofBytes hblock]
      generalize (MsgHeader.ofBytes r.block).toHost = hdr' at h hbytes
      split at h
      · cases h
      · next hmagic =>
          -- the message whose header has arrived, once its payload has the length in it
          have hwhole : ∀ data : Str, data.length = hdr'.length.toNat →
              (⟨hdr'.type, hdr'.status, data⟩ : Msg).header = hdr' := by
            intro data hdata
            rw [Msg.header]
            refine MsgHeader.ext (not_not.mp hmagic).symm rfl rfl ?_
            dsimp only
            rw [hdata, UInt32.ofNat_toNat]
          split at h
          · cases h
          · next hmax =>
              split at h
              · next hzero =>
                  cases h
                  have hheader := hwhole [] (by rw [hzero]; rfl)
                  refine ⟨⟨hdr.type, hdr.status, []⟩, r.rest, Nat.zero_le _, ?_, hheader.symm, rfl⟩
                  rw [Msg.frame, hheader, hbytes, List.append_nil]
                  exact hstream
              · cases hresult' : (readAll r.calls r.rest hdr'.length.toNat).result with
                | ended => rw [hresult'] at h; cases h
                | failed => rw [hresult'] at h; cases h
                | done =>
                    rw [hresult'] at h
                    cases h
                    obtain ⟨hrest, hlen⟩ := readAll_done _ _ _ hresult'
                    have hheader := hwhole _ hlen
                    refine ⟨⟨hdr.type, hdr.status, _⟩,
                      (readAll r.calls r.rest hdr.length.toNat).rest, by dsimp only; omega, ?_,
                      hheader.symm, rfl⟩
                    rw [Msg.frame, hheader, hbytes, List.append_assoc, ← hrest]
                    exact hstream

/-- The stream is cut inside a frame, or begins with a header that has a wrong magic or a
length that is too large. -/
inductive Broken : Str → Prop
  | cut {m : Msg} {stream missing : Str} (hlen : m.payload.length ≤ maxPayload)
      (hframe : m.frame = stream ++ missing) (hmissing : missing ≠ []) : Broken stream
  | badHeader {h : MsgHeader} (hbad : h.magic ≠ protoMagic ∨ maxPayload < h.length.toNat)
      (rest : Str) : Broken (h.toNetwork.bytes ++ rest)

/-- Streams that begin with headers have the same one if they begin with the same bytes. -/
lemma header_eq {h h' : MsgHeader} {x y : Str}
    (heq : h.toNetwork.bytes ++ x = h'.toNetwork.bytes ++ y) : h = h' ∧ x = y := by
  obtain ⟨hbytes, hrest⟩ := List.append_inj heq (by simp)
  exact ⟨MsgHeader.toNetwork_injective (MsgHeader.bytes_injective hbytes), hrest⟩

/-- **A broken frame is never received.** -/
lemma Broken.ne_message {stream : Str} (h : Broken stream) (calls : List IoCall) (hdr : MsgHeader)
    (payload : Str) : (recvMsg calls stream).1 ≠ .message hdr payload := by
  intro hrecv
  obtain ⟨m', rest, hlen', hstream, -, -⟩ := recvMsg_eq_message hrecv
  cases h with
  | @cut m _ missing hlen hframe hmissing =>
      rw [hstream, Msg.frame, Msg.frame, List.append_assoc, List.append_assoc] at hframe
      obtain ⟨hheader, hpayload⟩ := header_eq hframe
      have hlength : m.payload.length = m'.payload.length := by
        have hnat := congrArg (fun h => h.length.toNat) hheader
        dsimp only [Msg.header] at hnat
        rwa [m.toNat_length hlen, m'.toNat_length hlen'] at hnat
      have htotal := congrArg List.length hpayload
      rw [List.length_append, List.length_append] at htotal
      exact hmissing (List.length_eq_zero_iff.mp (by omega))
  | @badHeader h' hbad rest' =>
      rw [Msg.frame, List.append_assoc] at hstream
      obtain ⟨rfl, -⟩ := header_eq hstream
      rcases hbad with hmagic | hmax
      · exact hmagic rfl
      · rw [show m'.header.length.toNat = m'.payload.length from m'.toNat_length hlen'] at hmax
        omega

/-- **Framing survives any fragmentation**: however the calls of the two sides split the
bytes and are interrupted, the messages are received as they were sent and then the end of
the stream; a broken frame is never received, at the front of a stream or behind other
messages. -/
theorem framing (msgs : List Msg) (hmsgs : ∀ m ∈ msgs, m.payload.length ≤ maxPayload) :
    (∀ sends recvs, Undisturbed sends → Undisturbed recvs →
      (sendMsgs sends msgs).result = .done ∧
      ∀ n, recvMsgs (msgs.length + n) recvs (sendMsgs sends msgs).out =
        msgs.map (fun m => .message m.header m.payload) ++ List.replicate n .closed) ∧
    ∀ stream, Broken stream →
      (∀ recvs hdr payload, (recvMsg recvs stream).1 ≠ .message hdr payload) ∧
      ∀ recvs, Undisturbed recvs → ∃ r, (∀ hdr payload, r ≠ .message hdr payload) ∧
        recvMsgs (msgs.length + 1) recvs (msgs.flatMap Msg.frame ++ stream) =
          msgs.map (fun m => .message m.header m.payload) ++ [r] := by
  refine ⟨fun sends recvs hsends hrecvs => ?_, fun stream hbroken => ⟨hbroken.ne_message,
    fun recvs hrecvs => ?_⟩⟩
  · obtain ⟨hresult, hout⟩ := sendMsgs_undisturbed hsends msgs
    refine ⟨hresult, fun n => ?_⟩
    obtain ⟨calls', hcalls', hrecv⟩ := recvMsgs_frames hrecvs hmsgs n []
    rw [List.append_nil, recvMsgs_nil hcalls'] at hrecv
    rw [hout, hrecv]
  · obtain ⟨calls', -, hrecv⟩ := recvMsgs_frames hrecvs hmsgs 1 stream
    exact ⟨(recvMsg calls' stream).1, hbroken.ne_message calls', hrecv⟩

/-- Two messages, one of them empty, sent and received byte by byte with interruptions. -/
theorem framing_two :
    recvMsgs 3 [.interrupted, .upTo 0, .interrupted, .upTo 1]
        (sendMsgs [.upTo 0, .interrupted, .upTo 3] [⟨0x0301, 0, [7, 8]⟩, ⟨0x0107, 0, []⟩]).out =
      [.message ⟨protoMagic, 0x0301, 0, 2⟩ [7, 8], .message ⟨protoMagic, 0x0107, 0, 0⟩ [],
        .closed] :=
  ((framing [⟨0x0301, 0, [7, 8]⟩, ⟨0x0107, 0, []⟩] (by decide)).1
    [.upTo 0, .interrupted, .upTo 3] [.interrupted, .upTo 0, .interrupted, .upTo 1]
    (by simp [Undisturbed]) (by simp [Undisturbed])).2 1

end P2PShare
