import P2PShare.Client.Download

/-!
`client/seeder.cpp` next to a download: whether the pieces that a job announces can be
fetched.

* `servePeer`: one request that reaches the client's seeder, given its share table.
* `Download.shares`: the share table with a download beside the other shares: the job
  adds its store when the file is whole.
* `Announced` (**the invariant**): every bit that has been announced is set in the
  store.
* `announced_served_iff`: a request for an announced piece is served exactly when the
  file is shared.
-/

namespace P2PShare

open Cursor Reader PieceStore

/-! ### The seeder -/

/-- `ShareKey`. -/
structure ShareKey where
  group : Str
  file : Str
deriving DecidableEq

/-- The fields of `MSG_PIECE_REQUEST`. -/
def getPieceRequest : Get (ShareKey × UInt32) := do
  let group ← getStr
  let file ← getStr
  let index ← getU32
  return (⟨group, file⟩, index)

/-- The fields of `MSG_BITFIELD_REQUEST`. -/
def getBitfieldRequest : Get ShareKey := do
  let group ← getStr
  let file ← getStr
  return ⟨group, file⟩

/-- `serve_peer`: the type, the status and the payload of the answer to one request. -/
def servePeer (shares : ShareKey → Option PieceStore) (type : UInt16) (payload : Str) :
    MsgType × Status × Str :=
  match MsgType.ofCode type with
  | some .pieceRequest =>
      match decode getPieceRequest payload with
      | none => (.pieceData, .malformed, [])
      | some (k, index) =>
          match (shares k).bind fun store => store.readPiece index.toNat with
          | none => (.pieceData, .notFound, [])
          | some data => (.pieceData, .ok, putU32 index ++ data)
  | some .bitfieldRequest =>
      match decode getBitfieldRequest payload with
      | none => (.bitfieldData, .malformed, [])
      | some k =>
          match shares k with
          | none => (.bitfieldData, .notFound, [])
          | some store => (.bitfieldData, .ok, store.have_.bytes)
  | _ => (.response, .notImplemented, [])

/-- A piece request is served exactly when the file is shared and the store can read
the piece. -/
lemma servePeer_pieceRequest (shares : ShareKey → Option PieceStore) {payload : Str} {k : ShareKey}
    {index : UInt32} (hreq : decode getPieceRequest payload = some (k, index)) :
    (servePeer shares MsgType.pieceRequest.code payload).1 = .pieceData ∧
      ((servePeer shares MsgType.pieceRequest.code payload).2.1 = .ok ↔
        ∃ store, shares k = some store ∧ (store.readPiece index.toNat).isSome) := by
  rw [servePeer, MsgType.ofCode_code]
  dsimp only
  rw [hreq]
  cases hk : shares k with
  | none => simp [hk]
  | some store =>
      cases hread : store.readPiece index.toNat with
      | none => simp [hk, hread]
      | some data => simp [hk, hread]

/-- A verified piece that is held can be read. -/
lemma PieceStore.Verified.readPiece {H : Str → Str} {hashes : List Str} {st : PieceStore} {i : ℕ}
    (h : st.Verified H hashes i) (hi : i < st.pieceCount) (hhave : st.have_.test i = true) :
    (st.readPiece i).isSome := by
  rw [PieceStore.readPiece, if_neg (by omega), if_neg (by simp [hhave])]
  dsimp only
  rw [if_pos h.1]
  rfl

namespace Download

variable {H : Str → Str} {job : DownloadJob} {d d' : Download}

/-- `run_job` has called `add_share`. -/
def Registered (d : Download) : Prop := d.stage = .shared ∨ d.stage = .done

instance : Decidable d.Registered := inferInstanceAs (Decidable (_ ∨ _))

/-- The share table of the client: that of its other shares, with the store of the job
once the job has added it. -/
def shares (d : Download) (job : DownloadJob) (others : ShareKey → Option PieceStore) :
    ShareKey → Option PieceStore :=
  if d.Registered then Function.update others ⟨job.group, job.file⟩ (some d.store) else others

/-! ### What is announced -/

/-- Each of these bits is set in the store. -/
def Within (bits : List UInt8) (st : PieceStore) : Prop :=
  ∀ i, Bitmap.testBytes bits i = true → st.have_.test i = true

/-- **The invariant**: what is announced, or about to be, is held. -/
structure Announced (d : Download) : Prop where
  sent : ∀ bits ∈ d.sent, Within bits d.store
  stage : ∀ bits, d.stage = .sending bits → Within bits d.store
  workers : ∀ x ∈ d.workers, ∀ bits, x.phase = .sending bits → Within bits d.store

/-- Bits are never cleared. -/
lemma Announced.of_grown {r : Round} {stage : Stage} {rounds : ℕ}
    (hgrown : ∀ i, d.store.have_.test i = true → r.store.have_.test i = true)
    (hsent : ∀ bits ∈ r.sent, Within bits d.store) (hstage : ∀ bits, stage ≠ .sending bits)
    (hworkers : ∀ x ∈ r.workers, ∀ bits, x.phase = .sending bits → Within bits d.store) :
    Announced ⟨r, stage, rounds⟩ :=
  ⟨fun bits hbits i hi => hgrown i (hsent bits hbits i hi),
    fun bits hbits => absurd hbits (hstage bits),
    fun x hx bits hbits i hi => hgrown i (hworkers x hx bits hbits i hi)⟩

/-- **The step lemma.** -/
lemma Announced.step (h : d.Announced) (hs : d.Sound H job) {e : JobEvent}
    (hstep : d.step H job e = some d') : d'.Announced := by
  cases step_stepped hstep with
  | begin workers =>
      refine ⟨h.sent, by rintro bits ⟨⟩, fun x hx bits hbits => ?_⟩
      obtain ⟨-, rfl⟩ := List.mem_replicate.mp hx
      cases hbits
  | quiet hstore hworkers _ _ hsent hbits =>
      refine ⟨?_, ?_, ?_⟩
      · rw [hstore]
        intro bits hmem
        rcases hsent with heq | ⟨bits', hstage, heq⟩
        · exact h.sent bits (heq ▸ hmem)
        · rw [heq] at hmem
          rcases List.mem_append.mp hmem with hmem | hmem
          · exact h.sent bits hmem
          · obtain rfl := List.mem_singleton.mp hmem
            exact h.stage _ hstage
      · rw [hstore]
        intro bits hstage
        rw [hbits bits hstage]
        exact fun i hi => hi
      · rw [hstore, hworkers]
        exact h.workers
  | @worker w a r hstage hround =>
      have hsound := hs.round hstage
      obtain ⟨x, x', hx, hmoved, hworkers⟩ := Round.step_moved hround
      have hmem := List.mem_of_getElem? hx
      -- the worker that has moved sends nothing new, except for the bitmap it has read
      have hothers : (∀ bits, x'.phase = .sending bits → Within bits d.store) →
          ∀ y ∈ r.workers, ∀ bits, y.phase = .sending bits → Within bits d.store := by
        intro hnew y hy bits hphase
        rw [hworkers] at hy
        rcases List.mem_or_eq_of_mem_set hy with hy | rfl
        · exact h.workers y hy bits hphase
        · exact hnew bits hphase
      have hsending : ∀ bits, d.stage ≠ .sending bits := by
        intro bits hbits
        rw [hstage] at hbits
        cases hbits
      obtain ⟨s', workers'⟩ := r
      dsimp only at hmoved hothers
      cases hmoved with
      | idle hstore _ _ _ hsent hbits =>
          refine .of_grown (fun i hi => by dsimp only; rw [hstore]; exact hi) ?_ hsending
            (hothers fun bits hphase => ?_)
          · intro bits hbits'
            rcases hsent with heq | ⟨bits', hphase, heq⟩
            · exact h.sent bits (heq ▸ hbits')
            · change bits ∈ s'.sent at hbits'
              rw [heq] at hbits'
              rcases List.mem_append.mp hbits' with hold | hnew
              · exact h.sent bits hold
              · obtain rfl := List.mem_singleton.mp hnew
                exact h.workers x hmem _ hphase
          -- the bitmap that is read now is the one of the store
          · rw [hbits bits hphase]
            exact fun i hi => hi
      | popped | fetched | lost | wrote =>
          exact .of_grown (fun i hi => hi) h.sent hsending (hothers (by rintro bits ⟨⟩))
      | gaveBack _ hp =>
          refine .of_grown (fun i hi => hi) h.sent hsending (hothers ?_)
          rcases hp with rfl | rfl
          · rintro bits ⟨⟩
          · rintro bits ⟨⟩
      | @marked index put data hphase hput =>
          have hhand : x.phase.hand = some index := by rw [hphase]; rfl
          have hlt := (hsound.places.of_hand hx hhand).1
          exact .of_grown (fun i hi => Bitmap.test_set_of_test _ hlt hi) h.sent hsending
            (hothers (by rintro bits ⟨⟩))

/-- **A request for an announced piece is served** exactly when the job has added its
share, or the client shares the file otherwise with a store that has the piece. -/
theorem announced_served_iff (H : Str → Str) (job : DownloadJob) (file : Str)
    (seekData : ℕ → Option ℕ) (fails : ℕ → Bool) {st : PieceStore}
    (hopen : openForDownload file job.size job.pieceHashes.length = some st)
    (hrun : Run (step H job) (fun _ _ => True)
      (start (st.resumeScan H job.pieceHashes seekData fails)) d)
    {bits : List UInt8} (hbits : bits ∈ d.sent) {index : UInt32}
    (hset : Bitmap.testBytes bits index.toNat = true) {payload : Str}
    (hreq : decode getPieceRequest payload = some (⟨job.group, job.file⟩, index))
    (others : ShareKey → Option PieceStore) :
    ((servePeer (d.shares job others) MsgType.pieceRequest.code payload).1 = .pieceData ∧
        (servePeer (d.shares job others) MsgType.pieceRequest.code payload).2.1 = .ok) ↔
      d.Registered ∨ ∃ store, others ⟨job.group, job.file⟩ = some store ∧
        (store.readPiece index.toNat).isSome := by
  have hinv : d.Sound H job ∧ d.Announced := by
    refine hrun.invariant (I := fun d => d.Sound H job ∧ d.Announced)
      ⟨sound_start hopen, ?_, by rintro bits ⟨⟩, ?_⟩ fun hI _ hstep =>
        ⟨hI.1.step hstep, hI.2.step hI.1 hstep⟩
    · exact fun bits hmem => (by cases hmem)
    · exact fun x hx => (by cases hx)
  have hhave := hinv.2.sent bits hbits index.toNat hset
  obtain ⟨hlt, hver⟩ := hinv.1.held index.toNat hhave
  have hread := hver.readPiece hlt hhave
  have hserve := servePeer_pieceRequest (d.shares job others) hreq
  rw [hserve.2, and_iff_right hserve.1, shares]
  by_cases hreg : d.Registered
  · rw [if_pos hreg, Function.update_self]
    exact iff_of_true ⟨d.store, rfl, hread⟩ (.inl hreg)
  · rw [if_neg hreg]
    exact (or_iff_right hreg).symm

/-- The round with one peer, in which the worker announces the piece that it has
written. -/
def announcing : List JobEvent :=
  onePeer ++ [.worker 3 (.count true), .worker 3 .reset, .worker 3 .read,
    .worker 3 (.send true)]

/-- The request of a peer for the piece. -/
def thePiece : Str := putStr [3] ++ putStr [7] ++ putU32 0

theorem announced_served_iff_announcing :
    let st : PieceStore := ⟨1, 1, .empty 1, [0]⟩
    let d := (exec (step id Round.oneByte)
      (start (st.resumeScan id [[9]] (fun _ => some 0) fun _ => false)) announcing).get
        (by decide +kernel)
    ((servePeer (d.shares Round.oneByte fun _ => none) MsgType.pieceRequest.code thePiece).1 =
          .pieceData ∧
        (servePeer (d.shares Round.oneByte fun _ => none) MsgType.pieceRequest.code thePiece).2.1 =
          .ok) ↔
      d.Registered ∨ ∃ store, (none : Option PieceStore) = some store ∧
        (store.readPiece 0).isSome := by
  intro st d
  have hmeets : Meets (step id Round.oneByte) (fun _ _ => True)
      (start (st.resumeScan id [[9]] (fun _ => some 0) fun _ => false)) announcing :=
    meets_of_forall (p := fun _ => True) (fun _ _ => trivial) _
  have hrun := Run.of_exec hmeets (Option.some_get (by decide +kernel)).symm
  have hbits : [128] ∈ d.sent := by decide +kernel
  have hset : Bitmap.testBytes [128] (0 : UInt32).toNat = true := by decide +kernel
  have hreq : decode getPieceRequest thePiece =
      some (⟨Round.oneByte.group, Round.oneByte.file⟩, 0) := by
    decide +kernel
  exact announced_served_iff id Round.oneByte [] (fun _ => some 0) (fun _ => false)
    (by decide +kernel) hrun hbits hset hreq fun _ => none

/-- **Announced and not found**: the piece is announced in the round, and the share is
only added when the file is whole. -/
theorem announced_not_found :
    ∃ st d, openForDownload [] Round.oneByte.size Round.oneByte.pieceHashes.length = some st ∧
      Run (step id Round.oneByte) (fun _ _ => True)
        (start (st.resumeScan id Round.oneByte.pieceHashes (fun _ => some 0) fun _ => false)) d ∧
      (∃ bits ∈ d.sent, Bitmap.testBytes bits 0 = true) ∧
      servePeer (d.shares Round.oneByte fun _ => none) MsgType.pieceRequest.code thePiece =
        (.pieceData, .notFound, []) := by
  have hopen : openForDownload [] Round.oneByte.size Round.oneByte.pieceHashes.length =
      some ⟨1, 1, .empty 1, [0]⟩ := by
    decide +kernel
  have hmeets : Meets (step id Round.oneByte) (fun _ _ => True)
      (start (resumeScan id Round.oneByte.pieceHashes (fun _ => some 0) (fun _ => false)
        ⟨1, 1, .empty 1, [0]⟩)) announcing :=
    meets_of_forall (p := fun _ => True) (fun _ _ => trivial) _
  have hrun := Run.of_exec hmeets (Option.some_get (by decide +kernel)).symm
  exact ⟨_, _, hopen, hrun, ⟨[128], by decide +kernel, by decide +kernel⟩, by decide +kernel⟩

end Download

end P2PShare
