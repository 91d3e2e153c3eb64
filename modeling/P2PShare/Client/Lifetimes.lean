import P2PShare.Client.Leftover
import P2PShare.Client.ResumeScan
import P2PShare.Client.Transfer

/-!
A download over several lifetimes of the client, which may die at any moment.

* `Lifetimes`: the job that is on, and which bytes of the file are not in holes.
* `opened`: what `run_job` does first; `Lifetimes.step` is a step of the job, or the end of the
  process and a new start of the same download on the file as it is.
* `Lasting` (**the invariant**): every piece that is held, or of which something has been written,
  has data on disk, so that a scan does not take it for a hole.
* `pieces_kept`: what is held is held in every later lifetime, and over all of them no piece is
  brought to its end twice, but for pieces that a scan fails to read.
-/

namespace P2PShare

open Extent PieceStore

/-! ### The scan -/

namespace PieceStore

variable {H : Str → Str} {hashes : List Str} {st : PieceStore} {fails : ℕ → Bool} {i : ℕ}

/-- What a scan marks in a store that holds nothing yet. -/
lemma test_resumeScan {seekData : ℕ → Option ℕ} (hempty : ∀ i, st.have_.test i = false)
    (hcount : st.pieceCount = hashes.length) :
    (st.resumeScan H hashes seekData fails).have_.test i = true ↔
      i < st.pieceCount ∧ st.valid H hashes seekData fails i = true := by
  have hrange : ∀ k ∈ List.range (min st.pieceCount hashes.length), k < st.pieceCount :=
    fun k hk => lt_of_lt_of_le (List.mem_range.mp hk) (Nat.min_le_left _ _)
  rw [resumeScan]
  dsimp only
  rw [Bitmap.test_foldl_set _ _ hrange, hempty i, Bool.false_or]
  simp [hcount]

/-- A scan marks what is data, is read and has the hash. -/
lemma valid_seekData {data : ℕ → Bool} :
    st.valid H hashes (seekData data st.file.length) fails i = true ↔
      HasData data st.file (pieceOff i) (st.pieceLen i) ∧ fails i = false ∧
        st.Verified H hashes i := by
  rw [hasData_iff, valid]
  cases hseek : seekData data st.file.length (pieceOff i) with
  | none => simp
  | some k =>
      by_cases hend : pieceOff i + st.pieceLen i ≤ k
      · have hnot : ¬ k < pieceOff i + st.pieceLen i := Nat.not_lt.mpr hend
        simp [hend, hnot]
      · have hlt : k < pieceOff i + st.pieceLen i := Nat.lt_of_not_le hend
        simp [hend, hlt, Verified]

/-- More data, in a file that is no shorter. -/
lemma HasData.mono {data data' : ℕ → Bool} {file file' : Str} {off len : ℕ}
    (h : HasData data file off len) (hdata : ∀ b, data b = true → data' b = true)
    (hfile : file.length = file'.length) : HasData data' file' off len := by
  obtain ⟨k, hoff, hlen, hk, hbyte⟩ := h
  exact ⟨k, hoff, hlen, hfile ▸ hk, hdata k hbyte⟩

end PieceStore

/-- A file of that size is not changed. -/
lemma resize_self (f : Str) : resize 0 f f.length = f := by simp [resize]

/-- **What a worker is writing** after a step: nothing of a piece yet, or what it has just
written goes on where it was. -/
lemma Worker.step_wrote {H : Str → Str} {job : DownloadJob} {s s' : Shared} {x x' : Worker}
    {a : Act} (h : x.step H job s a = some (s', x')) {i put : ℕ} {bytes : Str}
    (hphase : x'.phase = .writing i bytes put) :
    put = 0 ∨ ∃ put₀ k, x.phase = .writing i bytes put₀ ∧ a = .pwrite (some (k + 1)) ∧
      put = put₀ + (k + 1) ∧ put ≤ bytes.length := by
  unfold Worker.step at h
  split at h
  · next ok _ =>
      obtain ⟨-, rfl⟩ := Prod.mk.inj (Option.some.inj h)
      cases ok <;> cases hphase
  · split at h
    · obtain ⟨-, rfl⟩ := Prod.mk.inj (Option.some.inj h)
      cases hphase
    · obtain ⟨-, rfl⟩ := Prod.mk.inj (Option.some.inj h)
      cases hphase
  · split at h
    · obtain ⟨-, rfl⟩ := Prod.mk.inj (Option.some.inj h)
      cases hphase
    · split at h
      · obtain ⟨-, rfl⟩ := Prod.mk.inj (Option.some.inj h)
        cases hphase
        -- a piece that has been accepted starts at its first byte
        exact .inl rfl
      · obtain ⟨-, rfl⟩ := Prod.mk.inj (Option.some.inj h)
        cases hphase
  · next index data put₀ k hold =>
      split at h
      · cases h
      · next hmore =>
          split at h
          · obtain ⟨-, rfl⟩ := Prod.mk.inj (Option.some.inj h)
            cases hphase
          · obtain ⟨-, rfl⟩ := Prod.mk.inj (Option.some.inj h)
            cases hphase
          · next n =>
              split at h
              · cases h
              · obtain ⟨-, rfl⟩ := Prod.mk.inj (Option.some.inj h)
                cases hphase
                exact .inr ⟨put₀, n, hold, rfl, rfl, by omega⟩
  · split at h
    · obtain ⟨-, rfl⟩ := Prod.mk.inj (Option.some.inj h)
      cases hphase
    · cases h
  · obtain ⟨-, rfl⟩ := Prod.mk.inj (Option.some.inj h)
    dsimp only at hphase
    split at hphase <;> cases hphase
  · obtain ⟨-, rfl⟩ := Prod.mk.inj (Option.some.inj h)
    dsimp only at hphase
    split at hphase <;> cases hphase
  · obtain ⟨-, rfl⟩ := Prod.mk.inj (Option.some.inj h)
    cases hphase
  · obtain ⟨-, rfl⟩ := Prod.mk.inj (Option.some.inj h)
    cases hphase
  · obtain ⟨-, rfl⟩ := Prod.mk.inj (Option.some.inj h)
    cases hphase
  · cases h

/-- **What is held** after a step of a worker was held before it, or its last byte has been
written. -/
lemma Moved.held_iff {H : Str → Str} {job : DownloadJob} {s s' : Shared} {x x' : Worker}
    (h : Moved H job s x s' x')
    (hhand : ∀ i, x.phase.hand = some i → i < s.store.pieceCount) :
    (∀ i, s.store.have_.test i = true → s'.store.have_.test i = true) ∧
      ∀ i, s'.store.have_.test i = true → s.store.have_.test i = true ∨
        ∃ bytes put, x.phase = .writing i bytes put ∧ bytes.length ≤ put := by
  cases h with
  | idle hstore =>
      rw [hstore]
      exact ⟨fun i hi => hi, fun i hi => .inl hi⟩
  | popped | fetched | lost | wrote | gaveBack => exact ⟨fun i hi => hi, fun i hi => .inl hi⟩
  | @marked index put bytes hphase hput =>
      have hlt := hhand index (by rw [hphase]; rfl)
      refine ⟨fun i hi => Bitmap.test_set_of_test _ hlt hi, fun i hi => ?_⟩
      change (s.store.have_.set index).test i = true at hi
      rw [Bitmap.test_set _ hlt, Bool.or_eq_true, decide_eq_true_eq] at hi
      rcases hi with hi | rfl
      · exact .inl hi
      · exact .inr ⟨bytes, put, hphase, hput⟩

/-! ### Lifetimes -/

/-- A download over the lifetimes of a client: the job that is on, and which bytes of its file
are not in holes. -/
structure Lifetimes where
  download : Download
  data : ℕ → Bool

/-- What happens next: the job goes on, or the client dies and the same download is started
again. Its scan fails to read the pieces `fails`. -/
inductive LifeEvent
  | job (e : JobEvent)
  | crash (fails : ℕ → Bool)

namespace LifeEvent

/-- A piece is brought to its end. -/
def marks : LifeEvent → ℕ
  | job (.worker _ .mark) => 1
  | _ => 0

/-- How many pieces a scan fails to read. -/
def misread (n : ℕ) : LifeEvent → ℕ
  | job _ => 0
  | crash fails => (List.range n).countP fails

end LifeEvent

namespace Lifetimes

/-- The bytes that an event writes. -/
def written (d : Download) : JobEvent → ℕ → Bool
  | .worker w (.pwrite (some k)), b => d.workers[w]?.any fun x =>
      match x.phase with
      | .writing index _ put =>
          decide (pieceOff index + put ≤ b ∧ b < pieceOff index + (put + k))
      | _ => false
  | _, _ => false

/-- The start of `run_job` on a file of which these bytes are not in holes. -/
def opened (H : Str → Str) (job : DownloadJob) (data : ℕ → Bool) (fails : ℕ → Bool) (file : Str) :
    Option Download :=
  (openForDownload file job.size job.pieceHashes.length).map fun st =>
    .start (st.resumeScan H job.pieceHashes (seekData data st.file.length) fails)

/-- One step. -/
def step (H : Str → Str) (job : DownloadJob) (s : Lifetimes) : LifeEvent → Option Lifetimes
  | .job e => (s.download.step H job e).map fun d =>
      ⟨d, fun b => s.data b || written s.download e b⟩
  | .crash fails => (opened H job s.data fails s.download.store.file).map fun d => ⟨d, s.data⟩

variable {H : Str → Str} {content : Str} {job : DownloadJob} {s s' : Lifetimes}

/-- **The invariant.** -/
structure Lasting (H : Str → Str) (job : DownloadJob) (s : Lifetimes) : Prop where
  sound : s.download.Sound H job
  counted : s.download.Counted
  length : s.download.store.file.length = job.size.toNat
  held : ∀ i, s.download.store.have_.test i = true →
    HasData s.data s.download.store.file (pieceOff i) (s.download.store.pieceLen i)
  begun : ∀ x ∈ s.download.workers, ∀ i bytes put, x.phase = .writing i bytes put → 0 < put →
    HasData s.data s.download.store.file (pieceOff i) (s.download.store.pieceLen i)

/-- **What a new start finds**: the pieces that are data, are read and have the hash. -/
lemma opened_cases {data fails : ℕ → Bool} {file : Str} {d : Download}
    (hopen : opened H job data fails file = some d) :
    ∃ st, openForDownload file job.size job.pieceHashes.length = some st ∧
      d = .start (st.resumeScan H job.pieceHashes (seekData data st.file.length) fails) ∧
      ∀ i, d.store.have_.test i = true ↔ i < st.pieceCount ∧
        HasData data st.file (pieceOff i) (st.pieceLen i) ∧ fails i = false ∧
          st.Verified H job.pieceHashes i := by
  obtain ⟨st, hst, rfl⟩ := Option.map_eq_some_iff.mp hopen
  obtain ⟨-, hcount, hempty⟩ := of_openForDownload hst
  refine ⟨st, hst, rfl, fun i => ?_⟩
  rw [← valid_seekData]
  exact test_resumeScan hempty hcount

/-- The invariant holds at the start. -/
lemma lasting_opened {data fails : ℕ → Bool} {file : Str} {d : Download}
    (hopen : opened H job data fails file = some d) : Lasting H job ⟨d, data⟩ := by
  obtain ⟨st, hst, rfl, hheld⟩ := opened_cases hopen
  refine ⟨Download.sound_start hst, Download.counted_start _, ?_, fun i hi => ?_,
    fun x hx => by cases hx⟩
  · obtain ⟨-, rfl⟩ := openForDownload_eq_some.mp hst
    exact length_resize 0 file job.size.toNat
  · exact ((hheld i).mp hi).2.1

/-- A piece of the file of an upload is not empty. -/
lemma pieceLen_pos (hof : job.Of H content) (hsize : content.length ≤ (2 ^ 32 - 1) * pieceSize)
    {d : Download} (hd : d.Sound H job) {i : ℕ} (hi : i < d.store.pieceCount) :
    0 < d.store.pieceLen i := by
  rw [hd.count] at hi
  have hlt : i < pieces content.length := by
    rwa [hof.pieceHashes, List.length_map, length_chunks] at hi
  have hbegin : i * pieceSize < content.length := HashFile.mul_lt_of_lt_parts pieceSize_pos hlt
  rw [(hof.consistent hsize).pieceLen_eq hd.size hd.count hi, hof.toNat_size hsize]
  have hpos := pieceSize_pos
  omega

/-- What a worker writes is data. -/
lemma written_eq {d : Download} {w : ℕ} {x : Worker} (hx : d.workers[w]? = some x) {i put k : ℕ}
    {bytes : Str} (hphase : x.phase = .writing i bytes put) {b : ℕ}
    (hle : pieceOff i + put ≤ b) (hlt : b < pieceOff i + (put + k)) :
    written d (.worker w (.pwrite (some k))) b = true := by
  rw [written, hx, Option.any_some, hphase]
  exact decide_eq_true ⟨hle, hlt⟩

/-- The invariant goes with the store and the data. -/
lemma Lasting.of_grown (h : s.Lasting H job) {d : Download} {data : ℕ → Bool}
    (hsound : d.Sound H job) (hcounted : d.Counted)
    (hlength : d.store.file.length = job.size.toNat)
    (hlen : ∀ i, d.store.pieceLen i = s.download.store.pieceLen i)
    (hdata : ∀ b, s.data b = true → data b = true)
    (hheld : ∀ i, d.store.have_.test i = true → s.download.store.have_.test i = true ∨
      HasData data d.store.file (pieceOff i) (d.store.pieceLen i))
    (hbegun : ∀ x ∈ d.workers, x ∈ s.download.workers ∨
      ∀ i bytes put, x.phase = .writing i bytes put → 0 < put →
        HasData data d.store.file (pieceOff i) (d.store.pieceLen i)) :
    Lasting H job ⟨d, data⟩ := by
  have hfile : s.download.store.file.length = d.store.file.length := h.length.trans hlength.symm
  refine ⟨hsound, hcounted, hlength, fun i hi => ?_, fun x hx i bytes put hphase hput => ?_⟩
  · rcases hheld i hi with hold | hnew
    · dsimp only
      rw [hlen]
      exact (h.held i hold).mono hdata hfile
    · exact hnew
  · rcases hbegun x hx with hold | hnew
    · dsimp only
      rw [hlen]
      exact (h.begun x hold i bytes put hphase hput).mono hdata hfile
    · exact hnew i bytes put hphase hput

/-- **A step of the job** keeps the invariant, and what is held stays. -/
lemma Lasting.step_job (h : s.Lasting H job) (hof : job.Of H content)
    (hsize : content.length ≤ (2 ^ 32 - 1) * pieceSize) {e : JobEvent} {d : Download}
    (hstep : s.download.step H job e = some d) :
    Lasting H job ⟨d, fun b => s.data b || written s.download e b⟩ ∧
      ∀ i, s.download.store.have_.test i = true → d.store.have_.test i = true := by
  have hsound := h.sound.step hstep
  have hcounted := (h.counted.step hstep).1
  have hlength := Download.length_file_step (hof.consistent hsize) h.sound h.length hstep
  have hmore : ∀ b, s.data b = true → (s.data b || written s.download e b) = true :=
    fun b hb => by rw [hb, Bool.true_or]
  have hlen : ∀ i, d.store.pieceLen i = s.download.store.pieceLen i := fun i => by
    rw [PieceStore.pieceLen, PieceStore.pieceLen, hsound.size, hsound.count, h.sound.size,
      h.sound.count]
  -- while the workers run, one of them steps or they are joined
  by_cases hstage : s.download.stage = .running
  · rcases Download.running_cases hstage hstep with ⟨w, a, r, rfl, hr, rfl⟩ | ⟨-, rfl⟩
    · obtain ⟨x, s₁, x', hx, hworker, rfl⟩ := Round.step_worker hr
      have hround := h.sound.round hstage
      have hlt : ∀ i, x.phase.hand = some i → i < s.download.store.pieceCount :=
        fun i hi => (hround.places.of_hand hx hi).1
      have hmem := List.mem_of_getElem? hx
      obtain ⟨hgrown, hheld⟩ := (Worker.step_moved hworker).held_iff hlt
      refine ⟨h.of_grown hsound hcounted hlength hlen hmore (fun i hi => ?_) fun y hy => ?_, hgrown⟩
      -- a piece that is marked has been written, so there is data in its part of the file
      · refine (hheld i hi).imp_right ?_
        rintro ⟨bytes, put, hphase, hput⟩
        have hi := hlt i (by rw [hphase]; rfl)
        have hbytes := (hround.writing w x hx i put bytes hphase).1
        have hpos : 0 < put := by
          have hlen := pieceLen_pos hof hsize h.sound hi
          omega
        have hold := h.begun x hmem i bytes put hphase hpos
        rw [hlen]
        exact hold.mono hmore (h.length.trans hlength.symm)
      · rcases List.mem_or_eq_of_mem_set hy with hy | rfl
        · exact .inl hy
        · refine .inr fun i bytes put hphase hput => ?_
          obtain ⟨put₀, k, hold, rfl, rfl, hle⟩ :=
            (Worker.step_wrote hworker hphase).resolve_left (Nat.pos_iff_ne_zero.mp hput)
          have hi := hlt i (by rw [hold]; rfl)
          have hbytes := (hround.writing w x hx i put₀ bytes hold).1
          have hend : pieceOff i + s.download.store.pieceLen i ≤ job.size.toNat :=
            (hof.consistent hsize).pieceEnd_le h.sound.size h.sound.count (h.sound.count ▸ hi)
          -- the bytes that have just been written are those from `put₀` on
          refine ⟨pieceOff i + put₀, Nat.le_add_right _ _, ?_, ?_, ?_⟩
          · rw [hlen]
            omega
          · rw [hlength]
            omega
          · dsimp only
            rw [written_eq hx hold le_rfl (by omega), Bool.or_true]
    · exact ⟨h.of_grown hsound hcounted hlength hlen hmore (fun i hi => .inl hi)
        fun x hx => .inl hx, fun i hi => hi⟩
  · cases Download.step_stepped hstep with
    | worker hrun => exact absurd hrun hstage
    | begin n =>
        refine ⟨h.of_grown hsound hcounted hlength hlen hmore (fun i hi => .inl hi) fun x hx => ?_,
          fun i hi => hi⟩
        obtain ⟨-, rfl⟩ := List.mem_replicate.mp hx
        exact .inr fun i bytes put hphase => by cases hphase
    | quiet hstore hworkers =>
        have hsame : ∀ i, d.store.have_.test i = true ↔ s.download.store.have_.test i = true :=
          fun i => by rw [hstore]
        refine ⟨h.of_grown hsound hcounted hlength hlen hmore (fun i hi => .inl ((hsame i).mp hi))
          fun x hx => .inl (hworkers ▸ hx), fun i hi => (hsame i).mpr hi⟩

/-- **A new start** finds what was held, but for the pieces that it fails to read. -/
lemma Lasting.step_crash (h : s.Lasting H job) {fails : ℕ → Bool} {d : Download}
    (hopen : opened H job s.data fails s.download.store.file = some d) :
    Lasting H job ⟨d, s.data⟩ ∧
      ∀ i, s.download.store.have_.test i = true → fails i = false →
        d.store.have_.test i = true := by
  refine ⟨lasting_opened hopen, fun i hi hread => ?_⟩
  obtain ⟨st, hst, rfl, hheld⟩ := opened_cases hopen
  obtain ⟨-, rfl⟩ := openForDownload_eq_some.mp hst
  have hfile : resize 0 s.download.store.file job.size.toNat = s.download.store.file := by
    rw [← h.length, resize_self]
  obtain ⟨hlt, hver⟩ := h.sound.held i hi
  have hcount := h.sound.count
  have hsize := h.sound.size
  have hlen : PieceStore.pieceLen ⟨job.size, job.pieceHashes.length, .empty _,
      resize 0 s.download.store.file job.size.toNat⟩ i = s.download.store.pieceLen i := by
    rw [PieceStore.pieceLen, PieceStore.pieceLen, hsize, hcount]
  refine (hheld i).mpr ⟨hcount ▸ hlt, ?_, hread, ?_⟩
  · rw [hlen]
    dsimp only
    rw [hfile]
    exact h.held i hi
  · rw [Verified, hlen]
    dsimp only
    rw [hfile]
    exact hver

/-! ### What is missing -/

/-- A count of what passes one of two checks. -/
lemma countP_le_add {p q r : ℕ → Bool} {l : List ℕ}
    (h : ∀ i ∈ l, p i = true → q i = true ∨ r i = true) :
    l.countP p ≤ l.countP q + l.countP r := by
  induction l with
  | nil => exact Nat.zero_le _
  | cons i l ih =>
      have hrest := ih fun j hj => h j (List.mem_cons_of_mem i hj)
      have hi := h i List.mem_cons_self
      rw [List.countP_cons, List.countP_cons, List.countP_cons]
      cases hp : p i with
      | false =>
          simp only [Bool.false_eq_true, if_false]
          omega
      | true =>
          rcases hi hp with hq | hr
          · simp only [hq, if_true]
            omega
          · simp only [hr, if_true]
            omega

lemma lacking_eq_countP (st : PieceStore) :
    Round.lacking st = (List.range st.pieceCount).countP fun i => !st.have' i := by
  rw [Round.lacking, Round.missing, List.countP_eq_length_filter]

/-- **What a step costs**: a piece that is brought to its end is missing no longer, and a new
start misses no more than what it fails to read. -/
lemma Lasting.step_lacking (h : s.Lasting H job) (hof : job.Of H content)
    (hsize : content.length ≤ (2 ^ 32 - 1) * pieceSize) {e : LifeEvent}
    (hstep : s.step H job e = some s') :
    s'.Lasting H job ∧ Round.lacking s'.download.store + e.marks ≤
      Round.lacking s.download.store + e.misread job.pieceHashes.length := by
  cases e with
  | crash fails =>
      obtain ⟨d, hopen, rfl⟩ := Option.map_eq_some_iff.mp hstep
      obtain ⟨hlasting, hkept⟩ := h.step_crash hopen
      refine ⟨hlasting, ?_⟩
      have hnew := hlasting.sound.count
      dsimp only at hnew
      rw [lacking_eq_countP, lacking_eq_countP, h.sound.count, hnew]
      -- a piece is missing after the start if it was before, or if it is not read
      refine countP_le_add fun i hi hmissing => ?_
      have hlt : i < job.pieceHashes.length := List.mem_range.mp hi
      by_contra hnot
      simp only [PieceStore.have', h.sound.count, hlt, decide_true, Bool.true_and,
        Bool.not_eq_true', not_or, Bool.not_eq_false, Bool.not_eq_true] at hnot
      have hheld := hkept i hnot.1 hnot.2
      simp [PieceStore.have', hnew, hlt, hheld] at hmissing
  | job e =>
      obtain ⟨d, hd, rfl⟩ := Option.map_eq_some_iff.mp hstep
      refine ⟨(h.step_job hof hsize hd).1, ?_⟩
      have hle := (h.counted.step hd).2
      cases e with
      | worker w a =>
          cases a with
          | mark =>
              -- the piece was in hand, and so it was missing
              have hstage : s.download.stage = .running := by
                by_contra hne
                exact (Download.workers_cases hne hd).1 w _ rfl
              rcases Download.running_cases hstage hd with ⟨w', a, r, heq, hr, rfl⟩ | ⟨-, rfl⟩
              · cases heq
                obtain ⟨x, s₁, x', hx, hworker, rfl⟩ := Round.step_worker hr
                obtain ⟨p, n⟩ := x
                cases p with
                | writing i bytes put =>
                    have hone := (h.sound.round hstage).places.of_hand hx
                      (show (WorkerPhase.writing i bytes put).hand = some i from rfl)
                    have hmark := Round.lacking_mark _ hone.1 hone.2.1
                    simp only [Worker.step] at hworker
                    split at hworker
                    · obtain ⟨rfl, -⟩ := Prod.mk.inj (Option.some.inj hworker)
                      exact hmark.le
                    · cases hworker
                | _ => simp [Worker.step] at hworker
              · simp [Download.step, hstage] at hd
          | connect | pop | fetch | pwrite | giveBack | count | reset | read | send => exact hle
      | begin | join | reset | read | send | finish | addShare | setDone => exact hle

/-- What is held is held after an event, unless it is a new start that fails to read it. -/
lemma Lasting.step_held (h : s.Lasting H job) (hof : job.Of H content)
    (hsize : content.length ≤ (2 ^ 32 - 1) * pieceSize) {e : LifeEvent}
    (hstep : s.step H job e = some s') {i : ℕ} (hi : s.download.store.have_.test i = true)
    (hread : ∀ fails, e = .crash fails → fails i = false) :
    s'.download.store.have_.test i = true := by
  cases e with
  | job e =>
      obtain ⟨d, hd, rfl⟩ := Option.map_eq_some_iff.mp hstep
      exact (h.step_job hof hsize hd).2 i hi
  | crash fails =>
      obtain ⟨d, hopen, rfl⟩ := Option.map_eq_some_iff.mp hstep
      exact (h.step_crash hopen).2 i hi (hread fails rfl)

/-- **A crash loses no piece**: over any number of lifetimes, what is held at some time is held at
every later one, unless a scan fails to read it; and the pieces that are brought to their end are
no more than those that were missing and those that a scan failed to read. -/
theorem pieces_kept (H : Str → Str) (job : DownloadJob) (hof : job.Of H content)
    (hsize : content.length ≤ (2 ^ 32 - 1) * pieceSize) (file : Str) (data fails : ℕ → Bool)
    {d₀ : Download} (hopen : opened H job data fails file = some d₀)
    (hrun : Run (step H job) (fun _ _ => True) ⟨d₀, data⟩ s) {es : List LifeEvent}
    (hexec : exec (step H job) s es = some s') :
    (∀ i, s.download.store.have_.test i = true → (∀ fails, .crash fails ∈ es → fails i = false) →
        s'.download.store.have_.test i = true) ∧
      Round.lacking s'.download.store + (es.map LifeEvent.marks).sum ≤
        Round.lacking s.download.store +
          (es.map (LifeEvent.misread job.pieceHashes.length)).sum := by
  have hlasting : s.Lasting H job := hrun.invariant (lasting_opened hopen) fun hI _ hstep =>
    (hI.step_lacking hof hsize hstep).1
  refine ⟨fun i hi hread => ?_, ?_⟩
  · have hmeets : Meets (step H job)
        (fun _ e => ∀ fails, e = LifeEvent.crash fails → fails i = false) s es := by
      refine meets_of_forall
        (p := fun e => ∀ fails, e = LifeEvent.crash fails → fails i = false) ?_ s
      rintro e he fails rfl
      exact hread fails he
    have hlast : s'.Lasting H job ∧ s'.download.store.have_.test i = true := by
      refine (Run.of_exec hmeets hexec).invariant
        (I := fun s => s.Lasting H job ∧ s.download.store.have_.test i = true) ⟨hlasting, hi⟩
        fun hI hok hstep => ?_
      exact ⟨(hI.1.step_lacking hof hsize hstep).1, hI.1.step_held hof hsize hstep hI.2 hok⟩
    exact hlast.2
  · exact potential_le (I := fun s => s.Lasting H job)
      (V := fun s => Round.lacking s.download.store)
      LifeEvent.marks (LifeEvent.misread job.pieceHashes.length)
      (fun hI hstep => hI.step_lacking hof hsize hstep) hlasting hexec

/-- The client dies when the only piece has been written. -/
def dying : List LifeEvent := Download.onePeer.map .job ++ [.crash fun _ => false]

theorem pieces_kept_dying :
    let d₀ := (opened first40 jobNine (fun _ => false) (fun _ => false) []).get (by decide +kernel)
    let s := (exec (step first40 jobNine) ⟨d₀, fun _ => false⟩ dying).get (by decide +kernel)
    Round.lacking s.download.store + 1 ≤ 1 + 0 := by
  intro d₀ s
  have hkept := pieces_kept first40 jobNine of_nine (by decide) [] (fun _ => false) (fun _ => false)
    (show _ = some d₀ from (Option.some_get _).symm) .start
    (show exec _ _ dying = some s from (Option.some_get _).symm)
  have hmarks : (dying.map LifeEvent.marks).sum = 1 := by decide +kernel
  have hmisread : (dying.map (LifeEvent.misread jobNine.pieceHashes.length)).sum = 0 := by
    decide +kernel
  have hlacking : Round.lacking d₀.store = 1 := by decide +kernel
  have hle := hkept.2
  rw [hmarks, hmisread] at hle
  exact hle.trans (by rw [hlacking])

end Lifetimes

end P2PShare
