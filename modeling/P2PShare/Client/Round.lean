import P2PShare.Client.Store
import P2PShare.Common.Buffer
import P2PShare.Lib.Runs

/-!
`DownloadManager::peer_worker`: the worker threads of one round of a download,
which share the queue, the store and the batching of announcements.

* `WorkerPhase`: where a worker is; `WorkerPhase.hand` is the index it has popped and has
  neither marked nor given back.
* `Worker.step` is one step of one worker, up to the next one that other threads
  can see: a queue operation, a fetch, one `pwrite`, the bitmap update, the parts
  of `maybe_announce` and `announce`. `Moved` says what such a step does.
* `Round.places`: how often an index is held, queued or in a worker's hands;
  `OnePlace.step` is the step lemma and `one_place` (**conservation**) the run.
-/

namespace P2PShare

open Cursor Reader

/-- `maxConsecutiveFailures`. -/
def maxConsecutiveFailures : ℕ := 3

/-- `kAnnounceEveryPieces`. -/
def announceEveryPieces : ℕ := 32

/-- `fetch_piece`, given the frame that comes back, if one does: `none` is
`false`. -/
def fetchPiece (index : ℕ) (reply : Option (UInt16 × UInt16 × Str)) : Option Str := do
  let (type, status, payload) ← reply
  if type ≠ MsgType.pieceData.code ∨ status ≠ Status.ok.code then none
  else
    let gotIndex ← decode getU32 payload
    if gotIndex.toNat = index then some (payload.drop 4) else none

/-- Where a worker is in `peer_worker`. -/
inductive WorkerPhase
  | connecting
  | top
  | fetching (index : ℕ)
  | writing (index : ℕ) (data : Str) (put : ℕ)
  | failing (index : ℕ)
  | counting
  | resetting
  | reading
  | sending (bits : List UInt8)
  | ended
deriving DecidableEq

/-- The index in the worker's hands. -/
def WorkerPhase.hand : WorkerPhase → Option ℕ
  | fetching index | writing index _ _ | failing index => some index
  | connecting | top | counting | resetting | reading | sending _ | ended => none

/-- How often the index is in the worker's hands. -/
def WorkerPhase.holds (p : WorkerPhase) (index : ℕ) : ℕ := if p.hand = some index then 1 else 0

namespace WorkerPhase

variable {p : WorkerPhase}

lemma holds_of_none (h : p.hand = none) (index : ℕ) : p.holds index = 0 := by
  rw [holds, h]
  rfl

lemma holds_of_some {i : ℕ} (h : p.hand = some i) (index : ℕ) :
    p.holds index = if i = index then 1 else 0 := by
  rw [holds, h]
  simp only [Option.some.injEq]

end WorkerPhase

/-- A worker with its count of consecutive failures. -/
structure Worker where
  phase : WorkerPhase
  failures : ℕ
deriving DecidableEq

/-- What the workers of a job share: the store, the queue (the back of the vector is
the end of the list), the pieces since the last announcement and, for the record,
the bitmaps of the `MSG_HAVE_PIECES` requests that have been sent. -/
structure Shared where
  store : PieceStore
  queue : List ℕ
  sinceAnnounce : ℕ
  sent : List (List UInt8)
deriving DecidableEq

/-- What the next step of a worker meets: whether the peer is reached, the frame
that it sends, what `pwrite` returns (`none` for an error), whether the
announcement interval is over, and whether `TrackerClient::request` finds a tracker
to send to: `announce` ignores its result. -/
inductive Act
  | connect (ok : Bool)
  | pop
  | fetch (reply : Option (UInt16 × UInt16 × Str))
  | pwrite (k : Option ℕ)
  | mark
  | giveBack
  | count (late : Bool)
  | reset
  | read
  | send (out : Bool)
deriving DecidableEq

/-- One step of a worker. -/
def Worker.step (H : Str → Str) (job : DownloadJob) (s : Shared) (x : Worker) (a : Act) :
    Option (Shared × Worker) :=
  match x.phase, a with
  | .connecting, .connect ok => some (s, { x with phase := if ok then .top else .ended })
  | .top, .pop =>
      match s.queue.getLast? with
      | none => some (s, { x with phase := .ended })
      | some index =>
          some ({ s with queue := s.queue.dropLast }, { x with phase := .fetching index })
  | .fetching index, .fetch reply =>
      match fetchPiece index reply with
      | none => some (s, { x with phase := .failing index })
      | some data =>
          if s.store.accepts H index data (job.pieceHash index) then
            some (s, { x with phase := .writing index data 0 })
          else some (s, { x with phase := .failing index })
  | .writing index data put, .pwrite k =>
      if data.length ≤ put then none
      else match k with
        | none | some 0 => some (s, { x with phase := .failing index })
        | some (k + 1) =>
            if data.length - put < k + 1 then none
            else
              some ({ s with store := s.store.pwrite index data put (k + 1) },
                { x with phase := .writing index data (put + (k + 1)) })
  | .writing index data put, .mark =>
      if data.length ≤ put then
        some ({ s with store := s.store.mark index }, { phase := .counting, failures := 0 })
      else none
  | .failing index, .giveBack =>
      some ({ s with queue := s.queue ++ [index] },
        { phase := if maxConsecutiveFailures ≤ x.failures + 1 then .ended else .top
          failures := x.failures + 1 })
  | .counting, .count late =>
      let n := s.sinceAnnounce + 1
      some ({ s with sinceAnnounce := n },
        { x with phase := if announceEveryPieces ≤ n ∨ late then .resetting else .top })
  | .resetting, .reset => some ({ s with sinceAnnounce := 0 }, { x with phase := .reading })
  | .reading, .read => some (s, { x with phase := .sending s.store.have_.bytes })
  | .sending bits, .send out =>
      some ({ s with sent := if out then s.sent ++ [bits] else s.sent }, { x with phase := .top })
  | _, _ => none

/-! ### What a step does -/

/-- **What a step of a worker does**: it has no index before and after it, or it
pops one, moves on with it, loses it, writes a part of it, marks it or gives it
back. -/
inductive Moved (H : Str → Str) (job : DownloadJob) (s : Shared) (x : Worker) :
    Shared → Worker → Prop
  | idle {s' : Shared} {x' : Worker} (hstore : s'.store = s.store) (hqueue : s'.queue = s.queue)
      (hhand : x.phase.hand = none) (hhand' : x'.phase.hand = none)
      (hsent : s'.sent = s.sent ∨ ∃ bits, x.phase = .sending bits ∧ s'.sent = s.sent ++ [bits])
      (hbits : ∀ bits, x'.phase = .sending bits → bits = s.store.have_.bytes) :
      Moved H job s x s' x'
  | popped {q : List ℕ} {index : ℕ} (hhand : x.phase.hand = none)
      (hqueue : s.queue = q ++ [index]) :
      Moved H job s x { s with queue := q } { x with phase := .fetching index }
  | fetched {index : ℕ} {data : Str} (hphase : x.phase = .fetching index)
      (hok : s.store.accepts H index data (job.pieceHash index) = true) :
      Moved H job s x s { x with phase := .writing index data 0 }
  | lost {index : ℕ} (hhand : x.phase.hand = some index) :
      Moved H job s x s { x with phase := .failing index }
  | wrote {index put k : ℕ} {data : Str} (hphase : x.phase = .writing index data put)
      (hk : put + k ≤ data.length) :
      Moved H job s x { s with store := s.store.pwrite index data put k }
        { x with phase := .writing index data (put + k) }
  | marked {index put : ℕ} {data : Str} (hphase : x.phase = .writing index data put)
      (hput : data.length ≤ put) :
      Moved H job s x { s with store := s.store.mark index } { phase := .counting, failures := 0 }
  | gaveBack {index n : ℕ} {p : WorkerPhase} (hphase : x.phase = .failing index)
      (hp : p = .ended ∨ p = .top) :
      Moved H job s x { s with queue := s.queue ++ [index] } { phase := p, failures := n }

lemma Worker.step_moved {H : Str → Str} {job : DownloadJob} {s s' : Shared} {x x' : Worker}
    {a : Act} (h : x.step H job s a = some (s', x')) : Moved H job s x s' x' := by
  unfold Worker.step at h
  split at h
  · next ok hphase =>
      obtain ⟨rfl, rfl⟩ := Prod.mk.inj (Option.some.inj h)
      refine .idle rfl rfl (by rw [hphase]; rfl) ?_ (.inl rfl) ?_
      -- connected or not, the worker has nothing in hand
      · cases ok <;> rfl
      · intro bits hbits
        cases ok <;> cases hbits
  · next hphase =>
      split at h
      · obtain ⟨rfl, rfl⟩ := Prod.mk.inj (Option.some.inj h)
        exact .idle rfl rfl (by rw [hphase]; rfl) rfl (.inl rfl) fun bits hbits => by cases hbits
      · next index hlast =>
          obtain ⟨rfl, rfl⟩ := Prod.mk.inj (Option.some.inj h)
          -- the last index of the queue goes into the hand of the worker
          refine .popped (by rw [hphase]; rfl) ?_
          exact (List.dropLast_append_getLast? index hlast).symm
  · next index reply hphase =>
      split at h
      · obtain ⟨rfl, rfl⟩ := Prod.mk.inj (Option.some.inj h)
        exact .lost (by rw [hphase]; rfl)
      · next data hdata =>
          split at h
          · next hok =>
              obtain ⟨rfl, rfl⟩ := Prod.mk.inj (Option.some.inj h)
              -- the answer has the length and the hash of the piece
              exact .fetched hphase hok
          · obtain ⟨rfl, rfl⟩ := Prod.mk.inj (Option.some.inj h)
            exact .lost (by rw [hphase]; rfl)
  · next index data put k hphase =>
      split at h
      · cases h
      -- a write that is not finished: it fails, writes nothing, or writes some bytes more
      · next hput =>
          split at h
          · obtain ⟨rfl, rfl⟩ := Prod.mk.inj (Option.some.inj h)
            exact .lost (by rw [hphase]; rfl)
          · obtain ⟨rfl, rfl⟩ := Prod.mk.inj (Option.some.inj h)
            exact .lost (by rw [hphase]; rfl)
          · next k =>
              split at h
              · cases h
              · obtain ⟨rfl, rfl⟩ := Prod.mk.inj (Option.some.inj h)
                exact .wrote hphase (by omega)
  · next index data put hphase =>
      split at h
      · next hput =>
          obtain ⟨rfl, rfl⟩ := Prod.mk.inj (Option.some.inj h)
          exact .marked hphase hput
      · cases h
  · next index hphase =>
      obtain ⟨rfl, rfl⟩ := Prod.mk.inj (Option.some.inj h)
      -- the piece goes back to the queue, and the worker ends or goes on
      refine .gaveBack hphase ?_
      split
      · exact .inl rfl
      · exact .inr rfl
  · next late hphase =>
      obtain ⟨rfl, rfl⟩ := Prod.mk.inj (Option.some.inj h)
      refine .idle rfl rfl (by rw [hphase]; rfl) ?_ (.inl rfl) ?_
      · dsimp only
        split <;> rfl
      · intro bits hbits
        dsimp only at hbits
        split at hbits <;> cases hbits
  · next hphase =>
      obtain ⟨rfl, rfl⟩ := Prod.mk.inj (Option.some.inj h)
      exact .idle rfl rfl (by rw [hphase]; rfl) rfl (.inl rfl) fun bits hbits => by cases hbits
  · next hphase =>
      obtain ⟨rfl, rfl⟩ := Prod.mk.inj (Option.some.inj h)
      refine .idle rfl rfl (by rw [hphase]; rfl) rfl (.inl rfl) fun bits hbits => ?_
      cases hbits
      rfl
  · next bits out hphase =>
      obtain ⟨rfl, rfl⟩ := Prod.mk.inj (Option.some.inj h)
      refine .idle rfl rfl (by rw [hphase]; rfl) rfl ?_ fun bits hbits => by cases hbits
      -- only a request that gets out is an announcement
      cases out with
      | false => exact .inl rfl
      | true => exact .inr ⟨bits, hphase, rfl⟩
  · cases h

/-! ### A round -/

/-- A round of `run_job`: its workers and what they share. -/
structure Round extends Shared where
  workers : List Worker
deriving DecidableEq

namespace Round

/-- The indices that are not held, from the first to the last. -/
def missing (st : PieceStore) : List ℕ := (List.range st.pieceCount).filter fun i => !st.have' i

/-- A round as it starts: the queue is built and the threads are created. -/
def start (s : Shared) (workers : ℕ) : Round :=
  { s with queue := missing s.store, workers := List.replicate workers ⟨.connecting, 0⟩ }

/-- A step of the worker `w`. -/
def step (H : Str → Str) (job : DownloadJob) (r : Round) (e : ℕ × Act) : Option Round := do
  let x ← r.workers[e.1]?
  let (s', x') ← x.step H job r.toShared e.2
  return ⟨s', r.workers.set e.1 x'⟩

/-- How many workers have the index in their hands. -/
def handed (workers : List Worker) (index : ℕ) : ℕ :=
  (workers.map fun x => x.phase.hand).count (some index)

/-- **How often an index is somewhere**: held, in the queue, in a worker's hands. -/
def places (r : Round) (index : ℕ) : ℕ :=
  (r.store.have' index).toNat + r.queue.count index + handed r.workers index

/-- **The invariant**: each index of a piece is in one place, and no other index is
anywhere. -/
def OnePlace (r : Round) : Prop :=
  ∀ index, r.places index = if index < r.store.pieceCount then 1 else 0

variable {H : Str → Str} {job : DownloadJob} {r r' : Round}

/-- A worker is replaced by itself one step later. -/
lemma handed_set {workers : List Worker} {w : ℕ} {x : Worker} (hx : workers[w]? = some x)
    (x' : Worker) (index : ℕ) :
    handed (workers.set w x') index + x.phase.holds index =
      handed workers index + x'.phase.holds index := by
  obtain ⟨hw, rfl⟩ := List.getElem?_eq_some_iff.mp hx
  have hmap : w < (workers.map fun x => x.phase.hand).length := by rwa [List.length_map]
  have hpos : workers[w].phase.holds index ≤ handed workers index := by
    rw [WorkerPhase.holds]
    split
    · next hhand =>
        exact List.count_pos_iff.mpr (List.mem_map.mpr ⟨_, List.getElem_mem hw, hhand⟩)
    · exact Nat.zero_le _
  rw [handed, List.map_set, List.count_set hmap, List.getElem_map]
  simp only [beq_iff_eq, WorkerPhase.holds] at hpos ⊢
  rw [handed] at hpos ⊢
  omega

/-- An index in some worker's hands. -/
lemma handed_pos {workers : List Worker} {w index : ℕ} {x : Worker} (hx : workers[w]? = some x)
    (hhand : x.phase.hand = some index) : 0 < handed workers index :=
  List.count_pos_iff.mpr (List.mem_map.mpr ⟨x, List.mem_of_getElem? hx, hhand⟩)

/-- A step of the round is one of a worker. -/
lemma step_worker {e : ℕ × Act} (h : r.step H job e = some r') :
    ∃ x s' x', r.workers[e.1]? = some x ∧ x.step H job r.toShared e.2 = some (s', x') ∧
      r' = ⟨s', r.workers.set e.1 x'⟩ := by
  obtain ⟨x, hx, h⟩ := Option.bind_eq_some_iff.mp h
  obtain ⟨⟨s', x'⟩, hstep, h⟩ := Option.bind_eq_some_iff.mp h
  exact ⟨x, s', x', hx, hstep, (Option.some.inj h).symm⟩

/-- What a step of the round is, in terms of the worker that takes it. -/
lemma step_moved {e : ℕ × Act} (h : r.step H job e = some r') :
    ∃ x x', r.workers[e.1]? = some x ∧ Moved H job r.toShared x r'.toShared x' ∧
      r'.workers = r.workers.set e.1 x' := by
  obtain ⟨x, s', x', hx, hstep, rfl⟩ := step_worker h
  exact ⟨x, x', hx, Worker.step_moved hstep, rfl⟩

/-- An index in a worker's hands is that of a piece, and it is nowhere else. -/
lemma OnePlace.of_hand (h : r.OnePlace) {w index : ℕ} {x : Worker} (hx : r.workers[w]? = some x)
    (hhand : x.phase.hand = some index) :
    index < r.store.pieceCount ∧ r.store.have' index = false ∧ handed r.workers index = 1 := by
  have hpos := handed_pos hx hhand
  have hone := h index
  rw [places] at hone
  by_cases hlt : index < r.store.pieceCount
  · rw [if_pos hlt] at hone
    refine ⟨hlt, ?_, by omega⟩
    cases hhave : r.store.have' index with
    | false => rfl
    | true =>
        rw [hhave, Bool.toNat_true] at hone
        omega
  · rw [if_neg hlt] at hone
    omega

/-- No two workers have the same index in their hands. -/
lemma OnePlace.hand_unique (h : r.OnePlace) {w₁ w₂ index : ℕ} {x₁ x₂ : Worker}
    (hx₁ : r.workers[w₁]? = some x₁) (hx₂ : r.workers[w₂]? = some x₂)
    (hhand₁ : x₁.phase.hand = some index) (hhand₂ : x₂.phase.hand = some index) : w₁ = w₂ := by
  by_contra hne
  have hone := (h.of_hand hx₁ hhand₁).2.2
  have hset := handed_set hx₁ ⟨.ended, 0⟩ index
  rw [WorkerPhase.holds_of_some hhand₁, if_pos rfl, WorkerPhase.holds_of_none rfl] at hset
  have hrest : (r.workers.set w₁ ⟨.ended, 0⟩)[w₂]? = some x₂ := by
    rw [List.getElem?_set_ne hne, hx₂]
  have hpos := handed_pos hrest hhand₂
  omega

lemma have'_mark (st : PieceStore) {i : ℕ} (hi : i < st.pieceCount) (j : ℕ) :
    (st.mark i).have' j = (st.have' j || decide (i = j)) := by
  show (decide (j < st.pieceCount) && (st.have_.set i).test j) = _
  rw [Bitmap.test_set _ hi, PieceStore.have']
  by_cases hij : i = j
  · subst hij
    simp [hi]
  · simp [hij]

/-- **The step lemma**: a step of a worker moves its index from one place to
another. -/
theorem OnePlace.step (h : r.OnePlace) {e : ℕ × Act} (hstep : r.step H job e = some r') :
    r'.OnePlace := by
  obtain ⟨x, x', hx, hmoved, hworkers⟩ := step_moved hstep
  obtain ⟨s', workers'⟩ := r'
  dsimp only at hmoved hworkers
  subst hworkers
  intro i
  have hone := h i
  have hset := handed_set hx x' i
  rw [places] at hone ⊢
  dsimp only
  cases hmoved with
  | idle hstore hqueue hhand hhand' =>
      rw [WorkerPhase.holds_of_none hhand, WorkerPhase.holds_of_none hhand'] at hset
      rw [hstore, hqueue]
      omega
  | @popped q index hhand hqueue =>
      rw [WorkerPhase.holds_of_none hhand, WorkerPhase.holds_of_some (i := index) rfl] at hset
      simp only [hqueue, List.count_append, List.count_singleton, beq_iff_eq] at hone
      dsimp only
      omega
  | @fetched index data hphase hok =>
      rw [hphase, WorkerPhase.holds_of_some (i := index) rfl,
        WorkerPhase.holds_of_some (i := index) rfl] at hset
      omega
  | @lost index hhand =>
      rw [WorkerPhase.holds_of_some hhand, WorkerPhase.holds_of_some (i := index) rfl] at hset
      omega
  | @wrote index put k data hphase hk =>
      rw [hphase, WorkerPhase.holds_of_some (i := index) rfl,
        WorkerPhase.holds_of_some (i := index) rfl] at hset
      show (r.store.have' i).toNat + r.queue.count i + _ = if i < r.store.pieceCount then 1 else 0
      omega
  | @marked index put data hphase hput =>
      obtain ⟨hlt, hhave, -⟩ := h.of_hand hx (show x.phase.hand = some index by rw [hphase]; rfl)
      rw [hphase, WorkerPhase.holds_of_some (i := index) rfl, WorkerPhase.holds_of_none rfl] at hset
      show ((r.store.mark index).have' i).toNat + r.queue.count i + _ =
        if i < r.store.pieceCount then 1 else 0
      rw [have'_mark r.store hlt]
      -- from the hand of the worker into the bitmap
      by_cases hi : index = i
      · subst hi
        simp only [hhave, decide_true, Bool.or_true, Bool.toNat_true, Bool.toNat_false, if_true]
          at hset hone ⊢
        omega
      · simp only [hi, if_false, decide_false, Bool.or_false] at hset ⊢
        omega
  | @gaveBack index n p hphase hp =>
      have hhand : WorkerPhase.hand p = none := by
        rcases hp with rfl | rfl
        · rfl
        · rfl
      rw [hphase, WorkerPhase.holds_of_some (i := index) rfl,
        WorkerPhase.holds_of_none hhand] at hset
      simp only [List.count_append, List.count_singleton, beq_iff_eq]
      omega

/-- What the queue is built from. -/
lemma count_missing (st : PieceStore) (i : ℕ) :
    (missing st).count i = if i < st.pieceCount ∧ st.have' i = false then 1 else 0 := by
  have hnodup : (missing st).Nodup := List.nodup_range.filter _
  rw [hnodup.count]
  simp only [missing, List.mem_filter, List.mem_range, Bool.not_eq_true']

lemma onePlace_start (s : Shared) (n : ℕ) : (start s n).OnePlace := by
  intro i
  have hnobody : handed (start s n).workers i = 0 := by
    simp [start, handed, WorkerPhase.hand, List.count_replicate]
  rw [places, hnobody]
  show (s.store.have' i).toNat + (missing s.store).count i + 0 =
    if i < s.store.pieceCount then 1 else 0
  rw [count_missing]
  by_cases hi : i < s.store.pieceCount
  · cases s.store.have' i <;> simp [hi]
  · have hno : s.store.have' i = false := by simp [PieceStore.have', hi]
    simp [hi, hno]

/-- What is not held is in the queue once nobody has an index in hand. -/
lemma OnePlace.count_queue (h : r.OnePlace) (hended : ∀ x ∈ r.workers, x.phase = .ended) (i : ℕ) :
    r.queue.count i = if i < r.store.pieceCount ∧ r.store.have' i = false then 1 else 0 := by
  have hone := h i
  have hnobody : handed r.workers i = 0 := by
    refine List.count_eq_zero.mpr fun hmem => ?_
    obtain ⟨x, hx, hhand⟩ := List.mem_map.mp hmem
    rw [hended x hx] at hhand
    cases hhand
  rw [places, hnobody] at hone
  by_cases hi : i < r.store.pieceCount
  · cases hhave : r.store.have' i with
    | false => simpa [hi, hhave] using hone
    | true => simpa [hi, hhave] using hone
  · simp only [hi, if_false, false_and] at hone ⊢
    omega

/-- **Conservation**: in every round, whatever the workers meet and in whatever order
they go on, each index is held, once in the queue or in the hands of one worker, and
when the workers have ended the queue has exactly what is not held. -/
theorem one_place (H : Str → Str) (job : DownloadJob) (s : Shared) (workers : ℕ)
    (hrun : Run (step H job) (fun _ _ => True) (start s workers) r) :
    (∀ i < r.store.pieceCount, r.places i = 1) ∧
      ((∀ x ∈ r.workers, x.phase = .ended) → ∀ i, r.queue.count i =
        if i < r.store.pieceCount ∧ r.store.have' i = false then 1 else 0) := by
  have hplace : r.OnePlace :=
    hrun.invariant (onePlace_start s workers) fun hI _ hstep => hI.step hstep
  refine ⟨fun i hi => ?_, hplace.count_queue⟩
  rw [hplace i, if_pos hi]

/-- A file of one piece, which is the byte `[9]`. -/
def oneByte : DownloadJob := ⟨[3], [7], 1, [9], [[9]], by decide⟩

/-- The store of that file before anything has arrived. -/
def nothing : Shared := ⟨⟨1, 1, .empty 1, [0]⟩, [], 0, []⟩

/-- Two workers: one fetches the piece, the other finds nothing to do. -/
def twoWorkers : List (ℕ × Act) :=
  [(0, .connect true), (1, .connect true), (0, .pop), (1, .pop),
    (0, .fetch (some (MsgType.pieceData.code, Status.ok.code, putU32 0 ++ [9]))),
    (0, .pwrite (some 1)), (0, .mark), (0, .count false), (0, .pop)]

theorem one_place_twoWorkers :
    let r := (exec (step id oneByte) (start nothing 2) twoWorkers).get (by decide +kernel)
    r.places 0 = 1 ∧ r.queue.count 0 = 0 := by
  intro r
  have hmeets : Meets (step id oneByte) (fun _ _ => True) (start nothing 2) twoWorkers :=
    meets_of_forall (p := fun _ => True) (fun _ _ => trivial) (start nothing 2)
  have hrun : Run (step id oneByte) (fun _ _ => True) (start nothing 2) r :=
    Run.of_exec hmeets (Option.some_get (by decide +kernel)).symm
  obtain ⟨hplace, hqueue⟩ := one_place id oneByte nothing 2 hrun
  refine ⟨hplace 0 (by decide +kernel), ?_⟩
  rw [hqueue (by decide +kernel) 0, if_neg (by decide +kernel)]

end Round

end P2PShare
