import P2PShare.Common.Protocol
import P2PShare.Lib.Extent
import P2PShare.Lib.WorkPool

/-!
`SHA1::hash_file`: the pieces of a file hashed by several threads.

* `pieceCount`, `chunkOff`, `chunkLen`: the arithmetic of the source on its own widths;
  `toNat_pieceCount` and `toNat_chunkLen` say what it comes to while the piece count fits.
* `chunkJobs`: reading and hashing one piece, with reads of any length; `hashThreads` and
  `hashStep`: the threads, which are a `Pool`; `returned`: what the function makes of the slots.
* `hash_any_schedule`: every schedule comes to its end, and the result is that of hashing the
  pieces one after another.

`hash_buffer` is the parameter `H`.
-/

namespace P2PShare

open Extent

namespace HashFile

/-! ### Sizes -/

/-- `size`: the length of the file. -/
def fileSize (content : Str) : UInt64 := UInt64.ofNat content.length

/-- `pc`. -/
def pieceCount (size : UInt64) (ps : UInt32) : UInt32 :=
  ((size + ps.toUInt64 - 1) / ps.toUInt64).toUInt32

/-- `off`. -/
def chunkOff (ps : UInt32) (i : UInt32) : UInt64 := i.toUInt64 * ps.toUInt64

/-- `len`. -/
def chunkLen (size : UInt64) (ps i : UInt32) : UInt64 := min ps.toUInt64 (size - chunkOff ps i)

/-- `n`, the number of threads, where the machine has `cores` of them. -/
def threadCount (threads cores pc : UInt32) : UInt32 :=
  min (if threads ≠ 0 then threads else max 1 cores) (max pc 1)

/-- How many parts of at most `k` a length has. -/
def parts (length k : ℕ) : ℕ := (length + k - 1) / k

/-- Every part begins before the end. -/
lemma mul_lt_of_lt_parts {length k i : ℕ} (hk : 0 < k) (hi : i < parts length k) :
    i * k < length := by
  have hle : (i + 1) * k ≤ length + k - 1 := (Nat.le_div_iff_mul_le hk).mp hi
  rw [Nat.add_mul, Nat.one_mul] at hle
  omega

/-- The parts cover the length. -/
lemma le_parts_mul {length k : ℕ} (hk : 0 < k) : length ≤ parts length k * k := by
  have hdiv := Nat.div_add_mod (length + k - 1) k
  have hmod := Nat.mod_lt (length + k - 1) hk
  rw [Nat.mul_comm] at hdiv
  rw [parts]
  omega

variable {content : Str} {ps : UInt32}

/-- A size whose pieces can be counted in 32 bits leaves room for another piece in 64. -/
lemma size_lt {length : ℕ} (hps : 0 < ps.toNat) (hcount : parts length ps.toNat < 2 ^ 32) :
    length + ps.toNat < 2 ^ 64 := by
  have hle : length ≤ parts length ps.toNat * ps.toNat := le_parts_mul hps
  have hps' := ps.toNat_lt
  have hmul : parts length ps.toNat * ps.toNat ≤ (2 ^ 32 - 1) * ps.toNat :=
    Nat.mul_le_mul_right _ (by omega)
  omega

lemma toNat_fileSize (hps : 0 < ps.toNat) (hcount : parts content.length ps.toNat < 2 ^ 32) :
    (fileSize content).toNat = content.length := by
  have hlt := size_lt hps hcount
  rw [fileSize, UInt64.toNat_ofNat', Nat.mod_eq_of_lt (by omega)]

variable {size : UInt64}

/-- **The number of pieces**: nothing wraps around. -/
lemma toNat_pieceCount (hps : 0 < ps.toNat) (hcount : parts size.toNat ps.toNat < 2 ^ 32) :
    (pieceCount size ps).toNat = parts size.toNat ps.toNat := by
  have hlt := size_lt hps hcount
  have hadd : (size + ps.toUInt64).toNat = size.toNat + ps.toNat := by
    rw [UInt64.toNat_add, UInt32.toNat_toUInt64, Nat.mod_eq_of_lt hlt]
  have hone : (1 : UInt64) ≤ size + ps.toUInt64 := by
    rw [UInt64.le_iff_toNat_le, hadd]
    show 1 ≤ _
    omega
  have hsub : (size + ps.toUInt64 - 1).toNat = size.toNat + ps.toNat - 1 := by
    rw [UInt64.toNat_sub_of_le _ _ hone, hadd]
    rfl
  rw [pieceCount, UInt64.toNat_toUInt32, UInt64.toNat_div, hsub, UInt32.toNat_toUInt64]
  exact Nat.mod_eq_of_lt hcount

variable {i : ℕ}

lemma toNat_chunkOff (ps : UInt32) (hi : i < 2 ^ 32) :
    (chunkOff ps (UInt32.ofNat i)).toNat = i * ps.toNat := by
  have hps := ps.toNat_lt
  have hmul : i * ps.toNat ≤ (2 ^ 32 - 1) * (2 ^ 32 - 1) := Nat.mul_le_mul (by omega) (by omega)
  rw [chunkOff, UInt64.toNat_mul, UInt32.toNat_toUInt64, UInt32.toNat_toUInt64,
    UInt32.toNat_ofNat', Nat.mod_eq_of_lt hi, Nat.mod_eq_of_lt (by omega)]

lemma toNat_min (a b : UInt64) : (min a b).toNat = min a.toNat b.toNat := by
  show (if a ≤ b then a else b).toNat = _
  split
  · next hle =>
      rw [UInt64.le_iff_toNat_le] at hle
      omega
  · next hgt =>
      rw [UInt64.le_iff_toNat_le] at hgt
      omega

/-- **The length of a piece**: nothing wraps around, and no piece is empty. -/
lemma toNat_chunkLen (hps : 0 < ps.toNat) (hcount : parts size.toNat ps.toNat < 2 ^ 32)
    (hi : i < parts size.toNat ps.toNat) :
    (chunkLen size ps (UInt32.ofNat i)).toNat = min ps.toNat (size.toNat - i * ps.toNat) := by
  have hoff := toNat_chunkOff ps (hi.trans hcount)
  have hlt := mul_lt_of_lt_parts hps hi
  have hle : chunkOff ps (UInt32.ofNat i) ≤ size := by
    rw [UInt64.le_iff_toNat_le, hoff]
    exact hlt.le
  have hsub : (size - chunkOff ps (UInt32.ofNat i)).toNat = size.toNat - i * ps.toNat := by
    rw [UInt64.toNat_sub_of_le _ _ hle, hoff]
  rw [chunkLen, toNat_min, hsub, UInt32.toNat_toUInt64]

/-- The same for the pieces of a file. -/
lemma toNat_chunkLen_file (hps : 0 < ps.toNat) (hcount : parts content.length ps.toNat < 2 ^ 32)
    (hi : i < parts content.length ps.toNat) :
    (chunkLen (fileSize content) ps (UInt32.ofNat i)).toNat =
      min ps.toNat (content.length - i * ps.toNat) := by
  have hsize := toNat_fileSize hps hcount
  rw [← hsize] at hcount hi ⊢
  exact toNat_chunkLen hps hcount hi

/-! ### The threads -/

/-- What a worker's loop over one piece meets: `pread` returns `k` bytes or fails, and at the end
of the loop the hash goes into its slot. -/
inductive ChunkEvent
  | pread (k : ℕ)
  | fail
  | store
deriving DecidableEq

/-- Reading and hashing the pieces. What a job has got so far is the filled part of `buf`. -/
def chunkJobs (H : Str → Str) (content : Str) (ps : UInt32) : Jobs Str ChunkEvent Str where
  count := (pieceCount (fileSize content) ps).toNat
  start _ := []
  step i buf e :=
    let off := (chunkOff ps (UInt32.ofNat i)).toNat
    let len := (chunkLen (fileSize content) ps (UInt32.ofNat i)).toNat
    if buf.length < len then
      match e with
      | .pread k =>
          -- no more than was asked for, and no more than the file has there
          if 0 < k ∧ k ≤ len - buf.length ∧ off + buf.length + k ≤ content.length then
            some (.more (buf ++ readAt content (off + buf.length) k))
          else none
      | .fail => some .abort
      | .store => none
    else
      match e with
      | .store => some (.result (H buf))
      | .pread _ | .fail => none

/-- The threads that `hash_file` starts. -/
def hashThreads (content : Str) (ps threads cores : UInt32) : Pool Str Str :=
  .start (threadCount threads cores (pieceCount (fileSize content) ps)).toNat

/-- One step of one thread; `next` has 32 bits. -/
def hashStep (H : Str → Str) (content : Str) (ps : UInt32) :
    Pool Str Str → ℕ × Deed ChunkEvent → Option (Pool Str Str) :=
  Pool.step (chunkJobs H content ps) (2 ^ 32)

/-- What `hash_file` returns after the threads have been joined, with what it writes to
`piece_hashes_out` and `size_out`; `none` is the empty string. -/
def returned (H : Str → Str) (content : Str) (ps : UInt32) (s : Pool Str Str) :
    Option (Str × Str × UInt64) :=
  if s.stop then none
  else
    let blob := (List.range (pieceCount (fileSize content) ps).toNat).flatMap fun i =>
      (s.slots i).getD []
    some (H blob, blob, fileSize content)

/-! ### One piece -/

/-- The pieces of a file, one after another. -/
def chunks (content : Str) (k : ℕ) : List Str :=
  (List.range (parts content.length k)).map fun i => readAt content (i * k) k

variable {H : Str → Str}

/-- **What a job has got** are the first bytes of its piece. -/
lemma within_chunk (hps : 0 < ps.toNat) (hcount : parts content.length ps.toNat < 2 ^ 32)
    (hi : i < parts content.length ps.toNat) {buf : Str}
    (h : (chunkJobs H content ps).Within i buf) :
    buf = readAt content (i * ps.toNat) buf.length ∧
      buf.length ≤ min ps.toNat (content.length - i * ps.toNat) := by
  have hoff := toNat_chunkOff ps (hi.trans hcount)
  have hlen := toNat_chunkLen_file hps hcount hi
  induction h with
  | start => exact ⟨by simp [chunkJobs, readAt], Nat.zero_le _⟩
  | @step buf buf' e _ hstep ih =>
      obtain ⟨hread, hle⟩ := ih
      simp only [chunkJobs, hoff, hlen] at hstep
      split at hstep
      · split at hstep
        · next k =>
            split at hstep
            · next hk =>
                obtain rfl := Work.more.inj (Option.some.inj hstep)
                obtain ⟨hlength, hgrown⟩ := readAt_grow hread hk.2.2
                rw [hlength]
                exact ⟨hgrown, by omega⟩
            · cases hstep
        · cases hstep
        · cases hstep
      · split at hstep <;> cases hstep

/-- **The result of a job** is the hash of its piece. -/
lemma yields_chunk (hps : 0 < ps.toNat) (hcount : parts content.length ps.toNat < 2 ^ 32)
    (hi : i < parts content.length ps.toNat) {r : Str}
    (h : (chunkJobs H content ps).Yields i r) : r = H (readAt content (i * ps.toNat) ps.toNat) := by
  obtain ⟨buf, e, hwithin, hstep⟩ := h
  have hlen := toNat_chunkLen_file hps hcount hi
  obtain ⟨hread, hle⟩ := within_chunk hps hcount hi hwithin
  simp only [chunkJobs, hlen] at hstep
  split at hstep
  · split at hstep
    · split at hstep <;> cases hstep
    · cases hstep
    · cases hstep
  · next hfull =>
      split at hstep
      · obtain rfl := Work.result.inj (Option.some.inj hstep)
        have hwhole : readAt content (i * ps.toNat) ps.toNat =
            readAt content (i * ps.toNat) buf.length := by
          rw [readAt, readAt, List.take_eq_take_iff, List.length_drop]
          omega
        rw [hwhole, ← hread]
      · cases hstep
      · cases hstep

/-- A job is given up only after a failed read. -/
lemma not_abort {e : ChunkEvent} (he : e ≠ .fail) (i : ℕ) (buf : Str) :
    (chunkJobs H content ps).step i buf e ≠ some .abort := by
  simp only [chunkJobs]
  split
  · split
    · split <;> nofun
    · exact absurd rfl he
    · nofun
  · split <;> nofun

/-- A job can always go on: the file has the bytes that are still to be read. -/
lemma exists_chunk_step (hps : 0 < ps.toNat) (hcount : parts content.length ps.toNat < 2 ^ 32)
    (hi : i < parts content.length ps.toNat) (buf : Str) :
    ∃ e : ChunkEvent, e ≠ .fail ∧ ((chunkJobs H content ps).step i buf e).isSome := by
  have hoff := toNat_chunkOff ps (hi.trans hcount)
  have hlen := toNat_chunkLen_file hps hcount hi
  by_cases hmore : buf.length < min ps.toNat (content.length - i * ps.toNat)
  · have hfits : 0 < 1 ∧ 1 ≤ min ps.toNat (content.length - i * ps.toNat) - buf.length ∧
        i * ps.toNat + buf.length + 1 ≤ content.length := by omega
    refine ⟨.pread 1, nofun, ?_⟩
    simp only [chunkJobs, hoff, hlen]
    rw [if_pos hmore, if_pos hfits]
    rfl
  · refine ⟨.store, nofun, ?_⟩
    simp only [chunkJobs, hlen]
    rw [if_neg hmore]
    rfl

/-- Every read brings the job closer to its end. -/
lemma chunk_rank {i : ℕ} {buf buf' : Str} {e : ChunkEvent}
    (h : (chunkJobs H content ps).step i buf e = some (.more buf')) :
    (chunkLen (fileSize content) ps (UInt32.ofNat i)).toNat - buf'.length <
      (chunkLen (fileSize content) ps (UInt32.ofNat i)).toNat - buf.length := by
  simp only [chunkJobs] at h
  split at h
  · next hmore =>
      split at h
      · split at h
        · next hk =>
            obtain rfl := Work.more.inj (Option.some.inj h)
            rw [List.length_append, length_readAt]
            omega
        · cases h
      · cases h
      · cases h
  · split at h <;> cases h

/-! ### All of them -/

/-- There is at least one thread. -/
lemma threadCount_pos (threads cores pc : UInt32) : 0 < (threadCount threads cores pc).toNat := by
  have hone : (1 : UInt32).toNat = 1 := rfl
  have hle : ∀ {a b : UInt32}, 0 < a.toNat → 0 < b.toNat → 0 < (min a b).toNat := by
    intro a b ha hb
    show 0 < (if a ≤ b then a else b).toNat
    split
    · exact ha
    · exact hb
  have hmax : ∀ {a b : UInt32}, 0 < a.toNat ∨ 0 < b.toNat → 0 < (max a b).toNat := by
    intro a b h
    show 0 < (if a ≤ b then b else a).toNat
    split
    · next hab =>
        rw [UInt32.le_iff_toNat_le] at hab
        omega
    · next hab =>
        rw [UInt32.le_iff_toNat_le] at hab
        omega
  refine hle ?_ (hmax (.inr (by decide)))
  split
  · next hne =>
      refine Nat.pos_of_ne_zero fun hzero => hne ?_
      exact UInt32.toNat_inj.mp hzero
  · exact hmax (.inl (by decide))

variable {threads cores : UInt32} {s : Pool Str Str}

/-- As many jobs as pieces. -/
lemma chunkJobs_count (hps : 0 < ps.toNat) (hcount : parts content.length ps.toNat < 2 ^ 32) :
    (chunkJobs H content ps).count = parts content.length ps.toNat := by
  have hsize := toNat_fileSize hps hcount
  show (pieceCount (fileSize content) ps).toNat = _
  rw [toNat_pieceCount hps (by rwa [hsize]), hsize]

/-- **What the function makes of the slots**, once each has the result of its job. -/
lemma returned_eq (hps : 0 < ps.toNat) (hcount : parts content.length ps.toNat < 2 ^ 32)
    (hstop : s.stop = false)
    (hslots : ∀ i < (chunkJobs H content ps).count,
      ∃ r, s.slots i = some r ∧ (chunkJobs H content ps).Yields i r) :
    returned H content ps s =
      some (H ((chunks content ps.toNat).flatMap H), (chunks content ps.toNat).flatMap H,
        fileSize content) := by
  have hjobs : (pieceCount (fileSize content) ps).toNat = parts content.length ps.toNat :=
    chunkJobs_count (H := H) hps hcount
  have hblob : ((List.range (pieceCount (fileSize content) ps).toNat).flatMap fun i =>
      (s.slots i).getD []) = (chunks content ps.toNat).flatMap H := by
    rw [hjobs, chunks, List.flatMap_map]
    refine List.flatMap_congr fun i hi => ?_
    have hi := List.mem_range.mp hi
    obtain ⟨r, hr, hyields⟩ := hslots i (by rwa [chunkJobs_count hps hcount])
    rw [hr, yields_chunk hps hcount hi hyields]
    rfl
  rw [returned, hstop, hblob]
  rfl

/-- **Threads whose reads do not fail**, when all of them have come to their end. -/
lemma joined_run (hps : 0 < ps.toNat)
    (hcount : parts content.length ps.toNat +
      (threadCount threads cores (pieceCount (fileSize content) ps)).toNat < 2 ^ 32)
    (hrun : Run (hashStep H content ps) (fun _ e => e.2.All (· ≠ .fail))
      (hashThreads content ps threads cores) s) (hjoined : s.Joined) :
    s.claims.map Prod.snd = List.range (parts content.length ps.toNat) ∧
      (∀ i < parts content.length ps.toNat, ∃! w, (w, i) ∈ s.claims) ∧
      returned H content ps s =
        some (H ((chunks content ps.toNat).flatMap H), (chunks content ps.toNat).flatMap H,
          fileSize content) := by
  have hfits : parts content.length ps.toNat < 2 ^ 32 := by omega
  have hjobs := chunkJobs_count (H := H) hps hfits
  have hstop := Pool.stop_run (fun i buf e he => not_abort he i buf) hrun
  have hsound := Pool.sound_run (by rwa [hjobs]) hrun
  obtain ⟨hclaims, hunique, hslots⟩ := hsound.results (threadCount_pos _ _ _) hjoined hstop
  rw [hjobs] at hclaims hunique
  exact ⟨hclaims, hunique, returned_eq hps hfits hstop hslots⟩

/-- **Hashing a file does not depend on the threads**: no schedule goes on for ever or gets
stuck, every piece is taken by one thread, and in the end the hashes are those of the pieces in
their order. -/
theorem hash_any_schedule (H : Str → Str) (content : Str) (ps threads cores : UInt32)
    (hps : 1 ≤ ps.toNat)
    (hcount : parts content.length ps.toNat +
      (threadCount threads cores (pieceCount (fileSize content) ps)).toNat < 2 ^ 32)
    {es : List (ℕ × Deed ChunkEvent)} {s : Pool Str Str}
    (hexec : exec (hashStep H content ps) (hashThreads content ps threads cores) es = some s)
    (hreads : ∀ e ∈ es, e.2.All (· ≠ .fail)) :
    es.length ≤ parts content.length ps.toNat * (ps.toNat + 3) +
        2 * (threadCount threads cores (pieceCount (fileSize content) ps)).toNat ∧
      (¬ s.Joined → ∃ e : ℕ × Deed ChunkEvent,
        e.2.All (· ≠ .fail) ∧ (hashStep H content ps s e).isSome) ∧
      (s.Joined →
        s.claims.map Prod.snd = List.range (parts content.length ps.toNat) ∧
        (∀ i < parts content.length ps.toNat, ∃! w, (w, i) ∈ s.claims) ∧
        returned H content ps s =
          some (H ((chunks content ps.toNat).flatMap H), (chunks content ps.toNat).flatMap H,
            fileSize content) ∧
        (fileSize content).toNat = content.length) := by
  have hfits : parts content.length ps.toNat < 2 ^ 32 := by omega
  have hjobs := chunkJobs_count (H := H) hps hfits
  have hwrap := hcount
  rw [← hjobs] at hwrap
  have hrun := Run.of_exec (meets_of_forall hreads _) hexec
  refine ⟨?_, fun hnot => ?_, fun hjoined => ?_⟩
  · rw [← hjobs]
    refine Pool.steps_le (fun i buf =>
      (chunkLen (fileSize content) ps (UInt32.ofNat i)).toNat - buf.length) ps.toNat
      (fun i hi => ?_) (fun i buf e buf' hstep => chunk_rank hstep) hwrap hexec
    rw [hjobs] at hi
    rw [toNat_chunkLen_file hps hfits hi]
    omega
  · refine (Pool.sound_run hwrap hrun).exists_step (fun i buf hi _ => ?_) hnot
    rw [hjobs] at hi
    exact exists_chunk_step hps hfits hi buf
  · obtain ⟨hclaims, hunique, hreturned⟩ := joined_run hps hcount hrun hjoined
    exact ⟨hclaims, hunique, hreturned, toNat_fileSize hps hfits⟩

/-- Two threads on a file of three bytes in pieces of two: the second thread takes the short
piece, and the first gets its two bytes one at a time. -/
def twoThreads : List (ℕ × Deed ChunkEvent) :=
  [(0, .look), (0, .claim), (1, .look), (0, .work (.pread 1)), (1, .claim), (1, .work (.pread 1)),
    (1, .work .store), (0, .work (.pread 1)), (1, .look), (0, .work .store), (0, .look),
    (1, .claim), (0, .claim)]

theorem hash_any_schedule_twoThreads :
    let s := (exec (hashStep id [7, 8, 9] 2) (hashThreads [7, 8, 9] 2 2 1) twoThreads).get
      (by decide +kernel)
    s.claims = [(0, 0), (1, 1)] ∧ returned id [7, 8, 9] 2 s = some ([7, 8, 9], [7, 8, 9], 3) := by
  intro s
  have hexec : exec (hashStep id [7, 8, 9] 2) (hashThreads [7, 8, 9] 2 2 1) twoThreads = some s :=
    (Option.some_get (by decide +kernel)).symm
  obtain ⟨-, -, hend⟩ := hash_any_schedule id [7, 8, 9] 2 2 1 (by decide +kernel)
    (by decide +kernel) hexec (by decide +kernel)
  have hjoined : ∀ d ∈ s.workers, d = .ended := by decide +kernel
  obtain ⟨-, -, hreturned, -⟩ := hend hjoined
  exact ⟨by decide +kernel, hreturned.trans (by decide +kernel)⟩

end HashFile

end P2PShare
